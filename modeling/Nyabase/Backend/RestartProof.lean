import Nyabase.Lib.Transition
import Nyabase.Backend.ContainerAction
import Nyabase.Backend.ReconcileFootprint

/-!
# A restart that succeeds was performed

A pass proves a restart by a read of the instance: it runs, and was started at another time than the
baseline, both as texts.  The first part follows a pass and shows that one over a restart succeeds only
after such a read.  The second part is a container with its route, its intents, the process of its instance
and any number of passes, whose calls are answered one by one while anything else happens; nothing keeps two
passes apart.  `report` is how Incus prints an instant.
-/

namespace Nyabase.Backend

open Lib Program List Option

/-! ## What a succeeded pass has seen -/

/-- Any call may be made; the row that is read is the container's. -/
def readsContainer (containerId : String) : Contract Call.Answer where
  answers _ call answer :=
    match call, answer with
    | .readContainer _, .ok (some row) => row.id = containerId
    | _, _ => True
  asks _ _ := True

def StateRead (name : String) (state : InstanceState) (history : History) : Prop :=
  ⟨.getInstanceState name, .ok state⟩ ∈ history

/-- A running instance was read that was started at another time than the baseline. -/
def RestartSeen (intent : ContainerIntent) (name : String) (history : History) : Prop :=
  ∃ baseline state, intent.baseline = some ⟨some baseline⟩ ∧ StateRead name state history ∧
    running state = true ∧ state.startedAt ≠ baseline

theorem RestartSeen.suffix {intent : ContainerIntent} {name : String} {history later : History}
    (h : RestartSeen intent name history) (hgrown : history <:+ later) : RestartSeen intent name later := by
  obtain ⟨baseline, state, hbaseline, hread, hrunning, hother⟩ := h
  exact ⟨baseline, state, hbaseline, hgrown.subset hread, hrunning, hother⟩

namespace Restart

variable {α : Type} {containerId name : String} {intent : ContainerIntent} {history : History}

/-- Nothing is asked of a pass that fails. -/
abbrev anyFailure : History → StepError → Prop := fun _ _ => True

theorem ensures_any (program : Pass α) :
    program.Promises (readsContainer containerId) (fun later _ => history <:+ later) history :=
  (ensures_grown fun _ _ => trivial).promises

/-- A step about which nothing is known but that the history grows. -/
theorem ensures_after {β : Type} {program : Pass α} {next : α → Pass β} {post : History → β → Prop}
    (h : ∀ later value, history <:+ later → (next value).Promises (readsContainer containerId) post later) :
    (program >>= next).Promises (readsContainer containerId) post history :=
  (ensures_any program).bind h

theorem readState_read :
    (readState name).Promises (readsContainer containerId) (fun later state => StateRead name state later) history :=
  ensures_request trivial (fun _ _ => mem_cons_self) fun _ _ => trivial

variable {row : ContainerRow} {desired : DesiredInstanceSpec} {state : InstanceState} {prefixLength : Nat}

/-- The state that is returned was read, if the one that was given was. -/
theorem stopForDisruptiveChange_read {actual : ActualInstance} {diff : ManagedFieldsDiff} (hname : actual.name = name)
    (hread : StateRead name state history) :
    (stopForDisruptiveChange intent row actual desired diff state).Promises (readsContainer containerId)
      (fun later state => StateRead name state later) history := by
  refine ensures_ite (fun _ => hread) fun _ => ensures_ite (fun _ => hread) fun _ =>
    ensures_ite (fun _ => ?_) fun _ => hread
  rw [hname]
  exact ensures_after fun later _ _ => readState_read

theorem reconcilePower_read (hread : StateRead name state history) :
    (reconcilePower intent row name state).Promises (readsContainer containerId)
      (fun later state => StateRead name state later) history := by
  refine ensures_ite (fun _ => hread) fun _ => ?_
  split
  · exact hread
  · exact ensures_after fun later _ _ => readState_read

theorem restartWithProof_seen {baseline : Option Rfc3339} (hbaseline : intent.baseline = some ⟨some baseline⟩) :
    (restartWithProof name baseline).Promises (readsContainer containerId)
      (fun later _ => RestartSeen intent name later) history := by
  refine ensures_after fun later _ _ => readState_read.bind fun later state hread => ?_
  refine ensures_ite (fun hshown => ?_) fun _ => trivial
  simp only [restartShown, Bool.and_eq_true, bne_iff_ne] at hshown
  exact ⟨baseline, state, hbaseline, hread, hshown.1.1, hshown.2⟩

section

variable (hrestart : intent.isRestart = true)

include hrestart

/-- The restart step of a restart ends only with a proof. -/
theorem reconcileRestart_seen (hread : StateRead name state history) :
    (reconcileRestart intent name state).Promises (readsContainer containerId)
      (fun later _ => RestartSeen intent name later) history := by
  unfold reconcileRestart
  rw [hrestart, if_neg (by simp)]
  split
  · trivial
  rename_i baseline hstarted
  have hbaseline : intent.baseline = some ⟨some baseline⟩ := by
    obtain ⟨⟨started⟩, hsome, hkey⟩ := bind_eq_some_iff.mp hstarted
    rw [hsome, ← hkey]
  refine ensures_ite (fun hproven => ?_) fun _ => restartWithProof_seen hbaseline
  rw [restartProven, Bool.and_eq_true, bne_iff_ne] at hproven
  exact ⟨baseline, state, hbaseline, hread, hproven.1, hproven.2⟩

/-! ### The outcomes of a restart -/

theorem isRestart_kind : intent.kind = .power := by
  rw [ContainerIntent.isRestart, Bool.and_eq_true, beq_iff_eq] at hrestart
  exact hrestart.1

/-- A restart that cannot be applied fails. -/
theorem loadRow_outcome {read : Option ContainerRow} {outcome : ReconcileOutcome}
    (h : loadRow intent read = .outcome outcome) : outcome.succeeds = false := by
  have hkind : (ContainerIntentKind.power == .delete) = false := rfl
  simp only [loadRow, hrestart, isRestart_kind hrestart, hkind, Bool.not_true, Bool.false_and,
    Bool.false_eq_true, if_false] at h
  repeat' split at h
  all_goals cases h
  all_goals rfl

/-- A restart is not applied to a container that is being deleted. -/
theorem loadRow_phase {read : Option ContainerRow}
    (h : loadRow intent read = .row row prefixLength) : row.lifecyclePhase ≠ .deleting := by
  obtain rfl : read = some row := loadRow_row h
  intro hdeleting
  rw [loadRow, hrestart, hdeleting] at h
  split at h
  · cases h
  · simp at h

/-- The attachment step ends a restart only by failing it. -/
theorem prepareAttachments_outcome : (prepareAttachments intent row).Promises (readsContainer containerId)
      (fun _ prepared => ∀ outcome, prepared = .outcome outcome → outcome.succeeds = false) history := by
  -- a restart is not stale when its attachments are read
  have hready : (readyAttachments intent row).Promises (readsContainer containerId)
      (fun _ prepared => ∀ outcome, prepared = .outcome outcome → outcome.succeeds = false) history := by
    refine ensures_after fun later first _ => ensures_ite (fun hstale => ?_) fun _ => ?_
    · simp [hrestart] at hstale
    · exact ensures_after fun _ _ _ => ensures_after fun _ _ _ outcome h => by cases h
  refine ensures_bind.mpr (ensures_tryCatch.mpr (Ensures.mono hready ?_ ?_))
  · intro later prepared _ hprepared
    exact ensures_after fun _ _ _ => hprepared
  intro later error _ _
  split
  · trivial
  refine ensures_after fun later passes _ => ensures_ite (fun _ => trivial) fun _ => ?_
  refine ensures_after fun later _ _ outcome h => ?_
  cases h
  rfl

end

/-- What a pass over a restart shows when it ends. -/
def ShowsRestart (containerId : String) (intent : ContainerIntent) (history : History)
    (outcome : ReconcileOutcome) : Prop :=
  outcome.succeeds = true → ∃ name, deriveInstanceName containerId = .ok name ∧ RestartSeen intent name history

theorem showsRestart_of_not {outcome : ReconcileOutcome} (h : outcome.succeeds = false) :
    ShowsRestart containerId intent history outcome :=
  fun hsucceeds => absurd hsucceeds (by simp [h])

theorem convergePower_shows {cpus : List Nat} (hrestart : intent.isRestart = true)
    (hname : deriveInstanceName containerId = .ok name) (hread : StateRead name state history) :
    (convergePower intent row prefixLength desired name cpus state).Promises (readsContainer containerId)
      (ShowsRestart containerId intent) history := by
  refine (reconcilePower_read hread).bind fun later powered hpowered => ?_
  refine (reconcileRestart_seen hrestart hpowered).bind fun later _ hseen => ?_
  -- once the restart is seen, the rest of the pass may end in any way
  refine (ensures_any _).mono fun last outcome _ hgrown _ => ?_
  exact ⟨name, hname, hseen.suffix hgrown⟩

theorem ensureInstance_name : (ensureInstance row desired name).Promises (readsContainer containerId)
      (fun _ actual => actual.name = name) history := by
  have hrequired (history : History) : (readRequired name).Promises (readsContainer containerId)
      (fun _ actual => actual.name = name) history :=
    ensures_after fun _ _ _ => rfl
  refine ensures_after fun later found _ => ?_
  split
  · exact ensures_after fun _ _ _ => ensures_after fun _ _ _ => ensures_after fun _ _ _ => hrequired _
  · refine ensures_ite (fun _ => ensures_after fun _ _ _ => hrequired _) fun hsame => ?_
    exact ensures_pure.mpr (by simpa using hsame)

theorem convergeInstance_shows {cpus : List Nat} {hasAttachments : Bool} (hrestart : intent.isRestart = true)
    (hname : deriveInstanceName containerId = .ok name) :
    (convergeInstance intent row prefixLength desired name cpus hasAttachments).Promises
      (readsContainer containerId) (ShowsRestart containerId intent) history := by
  refine ensureInstance_name.bind fun later actual hactual => ?_
  split
  · rename_i refused hrefused
    refine showsRestart_of_not ?_
    unfold checkIdentity at hrefused
    repeat' split at hrefused
    all_goals cases hrefused
    all_goals rfl
  · refine readState_read.bind fun later state hread => ?_
    split
    · exact showsRestart_of_not rfl
    refine (stopForDisruptiveChange_read hactual hread).bind fun later stopped hstopped => ?_
    refine ensures_after fun later used hgrown => ensures_after fun later' _ hgrown' => ?_
    refine ensures_ite (fun _ => showsRestart_of_not rfl) fun _ => ensures_after fun later'' _ hgrown'' => ?_
    refine convergePower_shows hrestart hname ?_
    exact (hgrown.trans (hgrown'.trans hgrown'')).subset hstopped

/-- A pass over a restart ends as succeeded only after a read of the container's instance that shows it
running since another time than the baseline. -/
theorem reconcile_shows (sha256Hex : String → String) (client : Bool) (hrestart : intent.isRestart = true) :
    (reconcile sha256Hex client intent).Promises (readsContainer containerId)
      (ShowsRestart containerId intent) history := by
  refine ensures_ite (fun _ => trivial) fun _ => ensures_bind.mpr (ensures_bind.mpr ?_)
  refine ensures_request trivial (fun read hread => ?_) fun _ _ => trivial
  cases hload : loadRow intent read with
  | outcome outcome => exact showsRestart_of_not (loadRow_outcome hrestart hload)
  | row row prefixLength =>
    obtain rfl : read = some row := loadRow_row hload
    obtain rfl : row.id = containerId := hread
    refine ensures_bind.mpr (ensures_ofExcept.mpr ?_)
    cases hname : deriveInstanceName row.id with
    | error error => trivial
    | ok name =>
      refine ensures_ite (fun hdelete => ?_) fun _ => ensures_after fun later _ _ => ?_
      · have hphase := loadRow_phase hrestart hload
        simp [isRestart_kind hrestart, hphase] at hdelete
      refine (prepareAttachments_outcome hrestart).bind fun later prepared hprepared => ?_
      cases prepared with
      | outcome outcome => exact showsRestart_of_not (hprepared outcome rfl)
      | attachments attachments =>
        exact ensures_after fun _ _ _ => ensures_after fun _ _ _ =>
          convergeInstance_shows hrestart hname

end Restart

/-! ## One container, its host and its passes -/

/-- A pass under way: what it has asked so far, and what it goes on with. -/
structure RunningPass where
  intent : ContainerIntent
  history : History
  rest : Pass ReconcileOutcome

/-- One container with its route and intents, the process of its instance and the passes over it.
`starts` are the instants at which the instance was started, newest first; the newest process is the one
that runs while the instance is `up`. -/
structure RestartWorld where
  row : ContainerRow
  route : RouteRow
  intents : List IntentRow
  starts : List Int
  up : Bool
  passes : List RunningPass

inductive RestartLabel where
  /-- The instance is started or goes down, by a pass or by anyone else. -/
  | started (instant : Int)
  | stopped
  /-- A power action is asked for. -/
  | act (action : ContainerAction) (admitted detaching : Bool) (intentId : String) (createdAt : Option Int)
  | retried (sourceId intentId : String) (createdAt : Option Int)
  /-- Another request or a scan changes the row, or asks for something that is no restart. -/
  | edited (row : ContainerRow)
  | enqueued (intent : ContainerIntent)
  /-- A worker takes up an intent; `client` says whether the server has a connection. -/
  | begun (intentId : String) (attemptCount : Nat) (client : Bool)
  /-- The next call of a pass is made and answered; `kept` says whether a failed call took effect. -/
  | answered (index : Nat) (answer : (call : Call) → call.Answer) (kept : Bool)
  | settled (index : Nat) (busyTooOften : Bool)
  | dropped (index : Nat)

namespace RestartWorld

/-- The calls whose answers the world knows: a row that is read is the container's, and an instance that
is read as running shows when its process was started, as Incus prints it. -/
def agrees (report : Int → Rfc3339) (world : RestartWorld) : (call : Call) → call.Answer → Bool
  | .readContainer _, .ok (some row) => row == world.row
  | .getInstanceState name, .ok state =>
    (deriveInstanceName world.row.id).toOption != some name || !running state ||
      (world.up && state.startedAt == world.starts.head?.map report)
  | _, _ => true

/-- The route after a call: `recordObservation` is the only call that writes it. -/
def routeAfter (world : RestartWorld) (kept : Bool) : (call : Call) → call.Answer → RouteRow
  | .recordObservation row _ state _ _ _, .ok _ =>
    if row.id == world.row.id then observedRoute state else world.route
  | .recordObservation row _ state _ _ _, .error _ =>
    if row.id == world.row.id && kept then observedRoute state else world.route
  | _, _ => world.route

def answerPass (report : Int → Rfc3339) (world : RestartWorld) (index : Nat)
    (answer : (call : Call) → call.Answer) (kept : Bool) : RunningPass → Option RestartWorld
  | ⟨intent, history, .ask question next⟩ =>
    if world.agrees report question (answer question) then
      some { world with
        route := world.routeAfter kept question (answer question)
        passes := world.passes.set index ⟨intent, ⟨question, answer question⟩ :: history, next (answer question)⟩ }
    else none
  | _ => none

def settlePass (world : RestartWorld) (index : Nat) (busyTooOften : Bool) : RunningPass → Option RestartWorld
  | ⟨intent, _, .done outcome⟩ =>
    some { world with
      intents := applyOutcome world.intents intent outcome busyTooOften
      passes := world.passes.eraseIdx index }
  | ⟨intent, _, .fail error⟩ =>
    some { world with
      intents := handleError world.intents intent error busyTooOften
      passes := world.passes.eraseIdx index }
  | _ => none

def step (sha256Hex : String → String) (report : Int → Rfc3339) (world : RestartWorld) :
    RestartLabel → Option RestartWorld
  | .started instant => some { world with starts := instant :: world.starts, up := true }
  | .stopped => some { world with up := false }
  | .act action admitted detaching intentId createdAt =>
    match actionInTransaction world.row world.route admitted detaching action intentId createdAt with
    | .error _ => some world
    | .ok (row, intent) =>
      (createPending world.intents intent world.starts.length).map fun intents =>
        { world with row, intents }
  | .retried sourceId intentId createdAt =>
    (retry world.intents sourceId intentId world.row.revision createdAt).map fun intents =>
      { world with intents }
  | .edited row => if row.id == world.row.id then some { world with row } else none
  | .enqueued intent =>
    if intent.isRestart then none
    else (createPending world.intents intent world.starts.length).map fun intents =>
      { world with intents }
  | .begun intentId attemptCount client =>
    (world.intents.find? fun entry => entry.intent.id == intentId).map fun entry =>
      let intent := { entry.intent with attemptCount }
      { world with passes := ⟨intent, [], reconcile sha256Hex client intent⟩ :: world.passes }
  | .answered index answer kept =>
    (world.passes[index]?).bind (world.answerPass report index answer kept)
  | .settled index busyTooOften => (world.passes[index]?).bind (world.settlePass index busyTooOften)
  | .dropped index => some { world with passes := world.passes.eraseIdx index }

/-- What a restart is asked for on: the route has the start of the newest process, and Incus prints it as
`toISOString` does. -/
def baselineCurrent (report : Int → Rfc3339) (world : RestartWorld) : Bool :=
  match world.starts with
  | [] => false
  | instant :: _ =>
    world.route.startedAt == some (timestamptz (report instant)) && decide (report instant).IsIsoMillis

/-- A step in which a restart is asked for only on a current route. -/
def currentStep (sha256Hex : String → String) (report : Int → Rfc3339) (world : RestartWorld) :
    RestartLabel → Option RestartWorld
  | .act .restart admitted detaching intentId createdAt =>
    if world.baselineCurrent report then
      world.step sha256Hex report (.act .restart admitted detaching intentId createdAt)
    else none
  | label => world.step sha256Hex report label

/-- The instance was started after the intent's action was asked for. -/
def StartedSince (world : RestartWorld) (entry : IntentRow) : Prop := entry.mark < world.starts.length

/-! ## The invariant -/

/-- What is known of a restart: as long as the instance was not started since, the baseline is what Incus
prints of its process. -/
structure EntryInv (report : Int → Rfc3339) (starts : List Int) (entry : IntentRow) : Prop where
  mark : entry.mark ≤ starts.length
  baseline : entry.mark = starts.length → entry.intent.baseline = some ⟨some (starts.head?.map report)⟩
  settled : entry.status = .succeeded → entry.mark < starts.length

/-- What is known of a pass over a restart. -/
structure PassInv (containerId : String) (intents : List IntentRow) (starts : List Int)
    (pass : RunningPass) : Prop where
  entry : ∃ entry ∈ intents, entry.intent.id = pass.intent.id ∧ entry.intent.isRestart = true ∧
    entry.intent.baseline = pass.intent.baseline ∧
    ∀ name, deriveInstanceName containerId = .ok name → RestartSeen pass.intent name pass.history →
      entry.mark < starts.length
  shows : pass.rest.Ensures (readsContainer containerId) (Restart.ShowsRestart containerId pass.intent)
    Restart.anyFailure pass.history

structure Inv (report : Int → Rfc3339) (world : RestartWorld) : Prop where
  ids : (world.intents.map fun entry => entry.intent.id).Nodup
  entries : ∀ entry ∈ world.intents, entry.intent.isRestart = true → EntryInv report world.starts entry
  passes : ∀ pass ∈ world.passes, pass.intent.isRestart = true → PassInv world.row.id world.intents world.starts pass

variable {report : Int → Rfc3339} {world next : RestartWorld}

/-- A start leaves every baseline behind. -/
theorem EntryInv.started {starts : List Int} {entry : IntentRow} (h : EntryInv report starts entry)
    (instant : Int) : EntryInv report (instant :: starts) entry where
  mark := by
    have := h.mark
    rw [length_cons]
    omega
  baseline hmark := by
    have := h.mark
    rw [length_cons] at hmark
    omega
  settled _ := by
    have := h.mark
    rw [length_cons]
    omega

variable {pass : RunningPass} {sha256Hex : String → String}

variable {intents : List IntentRow} {intent : ContainerIntent} {intentId : String} {createdAt : Option Int}

theorem PassInv.started {containerId : String} {starts : List Int} (h : PassInv containerId intents starts pass)
    (instant : Int) : PassInv containerId intents (instant :: starts) pass := by
  obtain ⟨entry, hentry, hid, hrestart, hsame, hseen⟩ := h.entry
  exact ⟨⟨entry, hentry, hid, hrestart, hsame, fun name hname h => Nat.lt_succ_of_lt (hseen name hname h)⟩, h.shows⟩

/-! ### New intents -/

/-- A new intent, which a pass can only know once it is there. -/
theorem Inv.created {row : ContainerRow} {mark : Nat} (h : Inv report world) (hrow : row.id = world.row.id)
    (hcreated : createPending world.intents intent mark = some intents)
    (hentry : intent.isRestart = true → EntryInv report world.starts { intent, status := .pending, mark }) :
    Inv report { world with row, intents } := by
  obtain ⟨hfresh, hcreated⟩ := ite_none_left_eq_some.mp hcreated
  obtain rfl := some.inj hcreated
  simp only [List.any_eq_true, beq_iff_eq, not_exists, not_and] at hfresh
  refine ⟨?_, ?_, ?_⟩
  · rw [map_cons, nodup_cons]
    refine ⟨fun hmem => ?_, h.ids⟩
    obtain ⟨entry, hentry, hid⟩ := mem_map.mp hmem
    exact hfresh entry hentry hid
  · intro entry hmem hrestart
    rcases mem_cons.mp hmem with rfl | hold
    · exact hentry hrestart
    · exact h.entries entry hold hrestart
  · intro pass hpass hrestart
    obtain ⟨⟨entry, hmem, hentry⟩, hshows⟩ := h.passes pass hpass hrestart
    rw [hrow]
    exact ⟨⟨entry, mem_cons_of_mem _ hmem, hentry⟩, hshows⟩

/-- What an accepted action writes: only a restart is a restart, with the baseline of the route. -/
theorem actionInTransaction_ok {row written : ContainerRow} {route : RouteRow} {admitted detaching : Bool}
    {action : ContainerAction}
    (h : actionInTransaction row route admitted detaching action intentId createdAt = .ok (written, intent)) :
    written.id = row.id ∧
      (intent.isRestart = true → action = .restart ∧ intent.baseline = some (restartBaseline route)) := by
  revert h
  fun_cases actionInTransaction row route admitted detaching action intentId createdAt with
  | case5 =>
    intro h
    obtain ⟨rfl, rfl⟩ := Prod.mk.inj (Except.ok.inj h)
    refine ⟨rfl, fun hrestart => ?_⟩
    have htext : (action.kind == .power && some action.text == some "restart") = true := hrestart
    have haction : action = .restart := by
      revert htext
      cases action <;> decide
    exact ⟨haction, by rw [haction]; rfl⟩
  | _ => nofun

theorem Inv.acted {action : ContainerAction} {admitted detaching : Bool} (h : Inv report world)
    (hcurrent : action = .restart → world.baselineCurrent report = true)
    (hstep : world.step sha256Hex report (.act action admitted detaching intentId createdAt) = some next) :
    Inv report next := by
  simp only [step] at hstep
  split at hstep
  · obtain rfl : world = next := some.inj hstep
    exact h
  rename_i row intent haction
  obtain ⟨intents, hcreated, rfl⟩ := map_eq_some_iff.mp hstep
  obtain ⟨hrow, hbaseline⟩ := actionInTransaction_ok haction
  refine h.created hrow hcreated fun hrestart => ?_
  obtain ⟨haction, hintent⟩ := hbaseline hrestart
  refine ⟨le_refl _, fun _ => ?_, nofun⟩
  -- on a current route the baseline is what Incus prints of the newest process
  have hcurrent := hcurrent haction
  unfold baselineCurrent at hcurrent
  split at hcurrent
  · cases hcurrent
  rename_i instant earlier hstarts
  rw [Bool.and_eq_true, beq_iff_eq, decide_eq_true_eq] at hcurrent
  rw [hintent, restartBaseline, hstarts, hcurrent.1, map_some, toISOString_dateOf_timestamptz hcurrent.2]
  rfl

theorem Inv.retried {sourceId : String} (h : Inv report world)
    (hretry : retry world.intents sourceId intentId world.row.revision createdAt = some intents) :
    Inv report { world with intents } := by
  obtain ⟨source, hfound, hcreated⟩ := bind_eq_some_iff.mp hretry
  have hsource : source ∈ world.intents := List.mem_of_find?_eq_some hfound
  refine h.created rfl hcreated fun hrestart => ?_
  have hinv := h.entries source hsource hrestart
  exact ⟨hinv.mark, hinv.baseline, nofun⟩

/-! ### Passes -/

theorem Inv.begun {entry : IntentRow} {attemptCount : Nat} {client : Bool}
    (h : Inv report world) (hentry : entry ∈ world.intents) : Inv report { world with
      passes := ⟨{ entry.intent with attemptCount }, [],
        reconcile sha256Hex client { entry.intent with attemptCount }⟩ :: world.passes } := by
  refine ⟨h.ids, h.entries, fun pass hpass hrestart => ?_⟩
  rcases mem_cons.mp hpass with rfl | hold
  · refine ⟨⟨entry, hentry, rfl, hrestart, rfl, fun name _ hseen => ?_⟩,
      Restart.reconcile_shows sha256Hex client hrestart⟩
    obtain ⟨_, _, _, hread, _⟩ := hseen
    cases hread
  · exact h.passes pass hold hrestart

/-- An answer that agrees with the world is one the pass may rely on. -/
theorem answers_of_agrees {call : Call} {answer : call.Answer} (history : History)
    (h : world.agrees report call answer = true) : (readsContainer world.row.id).answers history call answer := by
  simp only [readsContainer]
  split
  · rename_i row
    have hrow : (row == world.row) = true := h
    exact congrArg ContainerRow.id (eq_of_beq hrow)
  · trivial

/-- A pass goes on with an answer.  If the answer shows another start than the baseline, the instance was
started since: until then, what Incus prints is the baseline. -/
theorem PassInv.answered {history : History} {question : Call} {rest : question.Answer → Pass ReconcileOutcome}
    {answer : question.Answer}
    (h : PassInv world.row.id world.intents world.starts ⟨intent, history, .ask question rest⟩)
    (hentries : ∀ entry ∈ world.intents, entry.intent.isRestart = true → EntryInv report world.starts entry)
    (hagrees : world.agrees report question answer = true) :
    PassInv world.row.id world.intents world.starts ⟨intent, ⟨question, answer⟩ :: history, rest answer⟩ := by
  obtain ⟨entry, hentry, hid, hrestart, hsame, hseen⟩ := h.entry
  refine ⟨⟨entry, hentry, hid, hrestart, hsame, fun name hname hnow => ?_⟩,
    h.shows.2 answer (answers_of_agrees history hagrees)⟩
  obtain ⟨baseline, state, hbaseline, hread, hrunning, hother⟩ := hnow
  rcases mem_cons.mp hread with hnow | hbefore
  · have hinv := hentries entry hentry hrestart
    cases hnow
    have hstarted : state.startedAt = world.starts.head?.map report := by
      simp only [agrees, hname, Except.toOption, hrunning, bne_self_eq_false, Bool.not_true,
        Bool.false_or, Bool.and_eq_true, beq_iff_eq] at hagrees
      exact hagrees.2
    refine Nat.lt_of_le_of_ne hinv.mark fun hmark => ?_
    have hprinted := (hinv.baseline hmark).symm.trans (hsame.trans hbaseline)
    rw [some.injEq, IntentBaseline.mk.injEq, some.injEq] at hprinted
    exact hother (hstarted.trans hprinted)
  · exact hseen name hname ⟨baseline, state, hbaseline, hbefore, hrunning, hother⟩

theorem Inv.answered {index : Nat} {answer : (call : Call) → call.Answer} {kept : Bool} (h : Inv report world)
    (hpass : pass ∈ world.passes) (hstep : world.answerPass report index answer kept pass = some next) :
    Inv report next := by
  unfold answerPass at hstep
  split at hstep
  · obtain ⟨hagrees, rfl⟩ := of_guard hstep
    refine ⟨h.ids, h.entries, fun other hother hrestart => ?_⟩
    rcases mem_or_eq_of_mem_set hother with hold | rfl
    · exact h.passes other hold hrestart
    · exact (h.passes _ hpass hrestart).answered h.entries hagrees
  · cases hstep

/-- Intents are settled; of the restarts at most one succeeds, and the instance was started since it. -/
theorem Inv.settled {passes : List RunningPass} {succeeds : IntentRow → Prop}
    (h : Inv report world) (hsettled : SettledFrom world.intents intents succeeds)
    (hpasses : ∀ pass ∈ passes, pass ∈ world.passes)
    (hstarted : ∀ entry ∈ world.intents, entry.intent.isRestart = true → succeeds entry →
      entry.mark < world.starts.length) : Inv report { world with intents, passes } := by
  obtain ⟨settle, rfl, hsettle⟩ := hsettled
  refine ⟨?_, ?_, ?_⟩
  · have hids : (fun entry : IntentRow => entry.intent.id) ∘ settle = fun entry => entry.intent.id :=
      funext fun entry => congrArg ContainerIntent.id (hsettle entry).1
    rw [List.map_map, hids]
    exact h.ids
  · intro entry hentry hrestart
    obtain ⟨old, hold, rfl⟩ := mem_map.mp hentry
    obtain ⟨hintent, hmark, hstatus⟩ := hsettle old
    rw [hintent] at hrestart
    have hinv := h.entries old hold hrestart
    constructor <;> rw [hmark]
    · exact hinv.mark
    · rw [hintent]
      exact hinv.baseline
    · exact fun hsucceeded => (hstatus hsucceeded).elim hinv.settled (hstarted old hold hrestart)
  · intro pass hpass hrestart
    obtain ⟨⟨entry, hmem, hentry⟩, hshows⟩ := h.passes pass (hpasses pass hpass) hrestart
    refine ⟨⟨settle entry, mem_map_of_mem hmem, ?_⟩, hshows⟩
    rw [(hsettle entry).1, (hsettle entry).2.1]
    exact hentry

theorem Inv.settledPass {index : Nat} {busyTooOften : Bool} (h : Inv report world) (hpass : pass ∈ world.passes)
    (hstep : world.settlePass index busyTooOften pass = some next) : Inv report next := by
  unfold settlePass at hstep
  split at hstep
  · rename_i intent history outcome
    cases hstep
    refine h.settled (applyOutcome_own world.intents intent outcome busyTooOften)
      (fun _ => mem_of_mem_eraseIdx) fun entry hentry hrestart hown => ?_
    -- the pass over this very restart has seen it
    obtain ⟨hsucceeds, hsame⟩ := hown
    obtain ⟨hintent, hid⟩ := hsame hrestart
    obtain ⟨⟨own, hown, hownId, -, -, hmark⟩, hshows⟩ := h.passes _ hpass hintent
    obtain rfl : entry = own := eq_of_key_eq h.ids hentry hown (hid.trans hownId.symm)
    obtain ⟨name, hname, hseen⟩ := hshows hsucceeds
    exact hmark name hname hseen
  · rename_i intent history error
    cases hstep
    exact h.settled (handleError_failed world.intents intent error busyTooOften fun _ => False)
      (fun _ => mem_of_mem_eraseIdx) fun _ _ _ hfalse => hfalse.elim
  · cases hstep

theorem Inv.step {label : RestartLabel} (h : Inv report world) (hcurrent : ∀ admitted detaching intentId createdAt,
      label = .act .restart admitted detaching intentId createdAt → world.baselineCurrent report = true)
    (hstep : world.step sha256Hex report label = some next) : Inv report next := by
  cases label with
  | started instant =>
    cases hstep
    exact { h with
      entries := fun entry hentry hrestart => (h.entries entry hentry hrestart).started instant
      passes := fun pass hpass hrestart => (h.passes pass hpass hrestart).started instant }
  | stopped =>
    cases hstep
    exact ⟨h.ids, h.entries, h.passes⟩
  | act action admitted detaching intentId createdAt =>
    refine h.acted (fun haction => ?_) hstep
    exact hcurrent admitted detaching intentId createdAt (by rw [haction])
  | retried sourceId intentId createdAt =>
    obtain ⟨intents, hretry, rfl⟩ := map_eq_some_iff.mp hstep
    exact h.retried hretry
  | edited row =>
    obtain ⟨hid, rfl⟩ := of_guard hstep
    refine ⟨h.ids, h.entries, ?_⟩
    rw [eq_of_beq hid]
    exact h.passes
  | enqueued intent =>
    obtain ⟨hother, hstep⟩ := ite_none_left_eq_some.mp hstep
    obtain ⟨intents, hcreated, rfl⟩ := map_eq_some_iff.mp hstep
    exact h.created rfl hcreated fun hrestart => absurd hrestart hother
  | begun intentId attemptCount client =>
    obtain ⟨entry, hfound, rfl⟩ := map_eq_some_iff.mp hstep
    exact h.begun (List.mem_of_find?_eq_some hfound)
  | answered index answer kept =>
    obtain ⟨pass, hpass, hanswer⟩ := bind_eq_some_iff.mp hstep
    exact h.answered (mem_of_getElem? hpass) hanswer
  | settled index busyTooOften =>
    obtain ⟨pass, hpass, hsettle⟩ := bind_eq_some_iff.mp hstep
    exact h.settledPass (mem_of_getElem? hpass) hsettle
  | dropped index =>
    cases hstep
    exact ⟨h.ids, h.entries, fun pass hpass => h.passes pass (mem_of_mem_eraseIdx hpass)⟩

theorem Inv.currentStep {label : RestartLabel} (h : Inv report world)
    (hstep : world.currentStep sha256Hex report label = some next) : Inv report next := by
  unfold RestartWorld.currentStep at hstep
  split at hstep
  · split at hstep
    · rename_i hcurrent
      exact h.step (fun _ _ _ _ _ => hcurrent) hstep
    · cases hstep
  · rename_i hother
    refine h.step (fun admitted detaching intentId createdAt hlabel => ?_) hstep
    exact absurd hlabel (hother admitted detaching intentId createdAt)

/-- In every run of a container's route, restarts, power changes and passes in which each restart is asked
for while the route has the start of the instance's newest process and Incus prints that start as
`toISOString` does: a restart that is settled as succeeded was performed, the instance was started after
the restart was asked for. -/
theorem succeeded_restart_was_performed (sha256Hex : String → String) (report : Int → Rfc3339)
    (start last : RestartWorld) (labels : List RestartLabel) (hintents : start.intents = [])
    (hpasses : start.passes = []) (hrun : run (currentStep sha256Hex report) start labels = some last) :
    ∀ entry ∈ last.intents, entry.intent.isRestart = true → entry.status = .succeeded → last.StartedSince entry := by
  have hstart : Inv report start := by
    refine ⟨?_, ?_, ?_⟩
    · rw [hintents]
      exact nodup_nil
    · rw [hintents]
      exact forall_mem_nil _
    · rw [hpasses]
      exact forall_mem_nil _
  have hlast : Inv report last := run_invariant (fun _ _ _ h hstep => Inv.currentStep h hstep) hstart hrun
  exact fun entry hentry hrestart hsucceeded => (hlast.entries entry hentry hrestart).settled hsucceeded

/-! ## Three restarts of one container -/

/-- The instance of the sample container as it is written for a revision. -/
def writtenInstance (revision : Nat) : InstanceFull :=
  let desired := (buildContainerSpec id { sampleRow with revision } [] sampleRuntime).toOption
  { config := desired.elim [] DesiredInstanceSpec.config
    devices := desired.elim [] DesiredInstanceSpec.devices
    profiles := []
    name := some sampleName
    status := some "Running"
    state := none }

def runningSince (instant : Int) : InstanceState where
  status := some "Running"
  startedAt := some (rfc3339Nano instant)
  rootUsage := .number 1

/-- The answers of a host on which the instance runs since an instant, after the restart was accepted. -/
def hostAnswer (revision : Nat) (instant : Int) : (call : Call) → call.Answer
  | .getInstanceFull _ => .ok { document := writtenInstance revision, etag := some "tag" }
  | .getInstanceState _ => .ok (runningSince instant)
  | .updateInstance _ _ _ => .ok ()
  | .updateInstanceState _ _ _ => .ok ()
  | .applyGuestNetwork _ _ => .ok ()
  | .reconcileSshFile _ _ => .ok { status := .disabled, lastError := none }
  | .recordObservation _ _ _ _ _ _ => .ok ()
  | .notifyProxies => .ok ()
  | .settleVolumeBinds _ _ _ => .ok ()
  | .dateNow => .ok 0
  | call => storeAnswer { sampleRow with revision := 4 } call

/-- A container that was started at an instant and observed since. -/
def observedSince (instant : Int) : RestartWorld where
  row := sampleRow
  route := observedRoute (runningSince instant)
  intents := []
  starts := [instant]
  up := true
  passes := []

/-- So many calls of the pass are answered. -/
def answers (count revision : Nat) (instant : Int) : List RestartLabel :=
  List.replicate count (.answered 0 (hostAnswer revision instant) false)

/-- A restart is asked for and its pass begins; its eleventh call writes the new revision. -/
def restartAsked (instant : Int) : List RestartLabel :=
  [.act .restart true false "restart" none, .begun "restart" 1 true] ++ answers 11 3 instant

/-- What became of the intents, and how often the instance was started. -/
def settledStarts (world : RestartWorld) : List (Bool × IntentStatus × Nat) × Nat :=
  (world.intents.map fun entry => (entry.intent.isRestart, entry.status, entry.mark), world.starts.length)

/-- The instance was started at `1.123` seconds; the pass restarts it at `2.456`. -/
def performedRestart : List RestartLabel :=
  restartAsked 1123000000 ++ answers 1 4 1123000000 ++ [.started 2456000000] ++
    answers 11 4 2456000000 ++ [.settled 0 false]

theorem performed_restart_succeeds :
    ∃ last, run (currentStep id rfc3339Nano) (observedSince 1123000000) performedRestart = some last ∧
      ∃ entry ∈ last.intents, entry.intent.isRestart = true ∧ entry.status = .succeeded ∧ last.StartedSince entry := by
  have hrun : (run (currentStep id rfc3339Nano) (observedSince 1123000000) performedRestart).map
      settledStarts = some ([(true, .succeeded, 1)], 2) := by decide +kernel
  obtain ⟨last, hlast, hsettled⟩ := map_eq_some_iff.mp hrun
  obtain ⟨entry, hentries, hentry⟩ := map_eq_singleton_iff.mp (congrArg Prod.fst hsettled)
  obtain ⟨hrestart, hstatus⟩ := Prod.mk.inj hentry
  have hmem : entry ∈ last.intents := by
    rw [hentries]
    exact mem_singleton.mpr rfl
  have hsucceeded : entry.status = .succeeded := (Prod.mk.inj hstatus).1
  exact ⟨last, hlast, entry, hmem, hrestart, hsucceeded,
    succeeded_restart_was_performed id rfc3339Nano (observedSince 1123000000) last performedRestart rfl rfl
      hlast entry hmem hrestart hsucceeded⟩

/-- The instance was started at `1.123456789` seconds; its pass calls this another time than `1.123`. -/
def preciseRestart : List RestartLabel :=
  restartAsked 1123456789 ++ answers 10 4 1123456789 ++ [.settled 0 false]

/-- The instance was started anew at `2.456` seconds and not observed since. -/
def unobservedRestart : List RestartLabel :=
  [.stopped, .started 2456000000] ++ restartAsked 2456000000 ++ answers 10 4 2456000000 ++ [.settled 0 false]

/-- Two restarts that succeed although the instance is not started after they are asked for. -/
theorem restarts_not_performed :
    (∀ instant ∈ [1123456789, 1123000000, 2456000000], (rfc3339Nano instant).instant = instant) ∧
    (run (step id rfc3339Nano) (observedSince 1123456789) preciseRestart).map settledStarts =
        some ([(true, .succeeded, 1)], 1) ∧
      (run (step id rfc3339Nano) (observedSince 1123000000) unobservedRestart).map settledStarts =
        some ([(true, .succeeded, 2)], 2) := by
  decide +kernel

end RestartWorld

end Nyabase.Backend
