import Nyabase.Agent.Firewall

/-!
# What `present` stands for

Two invariants of the guest firewall, over every interleaving of its operations with calls, failures and
outside changes of the ruleset.

* `SnapshotHonest`: while `verified` is set, the snapshot is the last listing the class read, and it
  claims the owner and the key kept beside it.
* `Confirmation`: while `confirmed` is set, an `apply` called in the current epoch has confirmed the
  document in use and the one in the file.

The second needs the file to be the work of a write that succeeded: a write that fails after its rename
leaves a document behind that was never adopted, and `restore` takes it without asking for a confirmation.
-/

namespace Nyabase.Agent

open Lib Common List

/-! ## The log -/

def lastListed (log : List FirewallEvent) : Option (Option NftListing) :=
  log.findSome? fun event => match event with
    | .listed listing => some listing
    | _ => none

def lastAdopted (log : List FirewallEvent) : Option (Option FirewallDocument) :=
  log.findSome? fun event => match event with
    | .adopted document => some document
    | _ => none

/-- The calls of `apply` that have not come to their confirmation, in order. -/
def pointApply : FirewallPoint → Option (FirewallDocument × Nat)
  | .checking document epoch => some (document, epoch)
  | .writing document epoch => some (document, epoch)
  | .syncing document epoch => some (document, epoch)
  | _ => none

def taskApply : FirewallTask → Option (FirewallDocument × Nat)
  | .apply document epoch => some (document, epoch)
  | _ => none

namespace FirewallWorld

variable {world next : FirewallWorld} {label : FirewallLabel}

/-! ## What a step does -/

/-- The next operation can start, and leaves this queue. -/
def Pops (world : FirewallWorld) (task : FirewallTask) (queue : List FirewallTask) : Prop :=
  world.running = none ∧ world.queue = task :: queue

def popped (world : FirewallWorld) (task : FirewallTask) (queue : List FirewallTask) : FirewallWorld :=
  { world with queue }.record (.started task)

/-- What a step can do, with the branches of the operations taken apart. -/
inductive Moves (world : FirewallWorld) (label : FirewallLabel) : FirewallWorld → Prop where
  | call {task} (hcall : taskApply task = none) (hcheck : ∀ id, task ≠ .check id) :
    Moves world label (world.enqueue task)
  | issue {document} :
    Moves world label ((world.enqueue (.apply document world.epoch)).record (.issued document world.epoch))
  | shareCheck : Moves world label world
  | newCheck : Moves world label { world.enqueue (.check world.nextCheck) with
      pendingCheck := some world.nextCheck, nextCheck := world.nextCheck + 1 }
  | resetConfirmation : Moves world label { world with epoch := world.epoch + 1, confirmed := false }
  | rulesetChanged {table : Option NftListing} : Moves world label { world with table }
  -- an operation starts
  | restore {queue} (hpops : world.Pops .restore queue) :
    Moves world label ((world.popped .restore queue).await .reading)
  | startCheck {queue id} (hpops : world.Pops (.check id) queue) :
    Moves world label ((world.popped (.check id) queue).startTask (.check id))
  | startEnd {task queue outcome} (hpops : world.Pops task queue) (hcheck : ∀ id, task ≠ .check id)
    (hend : ∀ id verified, outcome ≠ .checked id verified) :
    Moves world label ((world.popped task queue).finish outcome)
  | inUse {queue document epoch} (hpops : world.Pops (.apply document epoch) queue)
    (hinUse : world.inUse document = true) :
    Moves world label ((world.popped (.apply document epoch) queue).confirm document epoch)
  | apply {queue document epoch} (hpops : world.Pops (.apply document epoch) queue) :
    Moves world label ((world.popped (.apply document epoch) queue).await (.checking document epoch))
  | rename {queue owner} (hpops : world.Pops (.setServerId owner) queue) :
    Moves world label ({ world.popped (.setServerId owner) queue with owner }.verify .active .setServerId)
  | forget {queue owner} (hpops : world.Pops (.setServerId owner) queue) : Moves world label
      (({ world.popped (.setServerId owner) queue with owner }.useDocument none none).verify .active .setServerId)
  -- the running operation goes on
  | readNothing : Moves world label ((world.useDocument none none).verify .active .restore)
  | read {document owner readable} (hlabel : label = .read readable) (hfile : world.file = some ⟨owner, document⟩) :
    Moves world label ((world.useDocument (some document) (some owner)).verify .active .restore)
  | checkPassed {document epoch} (hrunning : world.running = some (.checking document epoch)) :
    Moves world label (world.await (.writing document epoch))
  | finish {outcome} (hend : ∀ id verified, outcome ≠ .checked id verified) : Moves world label (world.finish outcome)
  | finishCheck {id} (hrunning : world.running = some (.verified (.check id))) :
    Moves world label (world.finish (.checked id world.verified))
  | renamed {document epoch} (hrunning : world.running = some (.writing document epoch)) :
    Moves world label { world with
      file := some ⟨world.owner, document⟩, fileUnconfirmed := true, running := some (.syncing document epoch) }
  | written {document epoch} (hrunning : world.running = some (.syncing document epoch)) : Moves world label
      (({ world with fileUnconfirmed := false }.useDocument (some document) (some world.owner)).confirm document epoch)
  -- within `verify` and `install`
  | found {mode caller} {snapshot : FirewallSnapshot} (hrunning : world.running = some (.listing mode caller))
    (hsnapshot : world.snapshot = some snapshot) :
    Moves world label (((world.record (.listed (some snapshot.listing))).settle true none).await (.verified caller))
  | foreign {mode caller listing error} (hrunning : world.running = some (.listing mode caller)) :
    Moves world label (((world.record (.listed listing)).settle false (some error)).await (.verified caller))
  | reinstall {mode caller listing} (hrunning : world.running = some (.listing mode caller)) :
    Moves world label ((world.record (.listed listing)).install world.document (.verify caller))
  | nftApplied {key installer text} (hrunning : world.running = some (.applying key installer)) :
    Moves world label { world with table := some text, running := some (.relisting key installer) }
  | taken {key installer text} (hrunning : world.running = some (.relisting key installer))
    (hclaims : parseFirewallComment text = some ⟨world.owner, key⟩) :
    Moves world label { world.record (.listed (some text)) with
      snapshot := some ⟨world.owner, key, text⟩, running := some (.installed installer) }
  | mismatch {key installer listing error} (hrunning : world.running = some (.relisting key installer)) :
    Moves world label ((world.record (.listed listing)).await (.installFailed error installer))
  | installFailed {key installer error} (hrunning : world.running = some (.applying key installer) ∨
      world.running = some (.relisting key installer)) :
    Moves world label (world.await (.installFailed error installer))
  | listFailed {mode caller error} (hrunning : world.running = some (.listing mode caller)) :
    Moves world label ((world.settle false (some error)).await (.verified caller))
  | installed {caller} (hrunning : world.running = some (.installed (.verify caller))) :
    Moves world label ((world.settle true none).await (.verified caller))
  | verifyFailed {caller error} (hrunning : world.running = some (.installFailed error (.verify caller))) :
    Moves world label ((world.settle false (some error)).await (.verified caller))
  | fallback : Moves world label (world.install none (.fallback world.lastError))
  | fellBack {error} {result : FirewallRestoreResult} :
    Moves world label ((world.settle false (some error)).finish (.restored result))

section

variable {task : FirewallTask} {queue : List FirewallTask} {document : FirewallDocument} {epoch id : Nat}
  {key : String} {mode : VerifyMode} {caller : VerifyCaller}
  {installer : InstallCaller} {listing : Option NftListing} {text : NftListing} {error : String}

theorem startTask_moves (hpops : world.Pops task queue) :
    Moves world label ((world.popped task queue).startTask task) := by
  fun_cases startTask (world.popped task queue) task with
  | case1 => exact .restore hpops
  | case2 | case5 => exact .startEnd hpops nofun nofun
  | case3 document epoch _ hinUse => exact .inUse hpops hinUse
  | case4 => exact .apply hpops
  | case6 => exact .forget hpops
  | case7 => exact .rename hpops
  | case8 => exact .startCheck hpops

theorem restoreRead_moves (readable : Bool) :
    Moves world (.read readable) (world.restoreRead (if readable then world.file else none)) := by
  unfold restoreRead
  split
  · exact .readNothing
  rename_i stored hread
  split
  · exact .readNothing
  · refine @Moves.read _ _ _ stored.serverId _ rfl ?_
    cases readable with
    | true => exact hread
    | false => cases hread

theorem verifyListed_moves (hrunning : world.running = some (.listing mode caller)) :
    Moves world label ((world.record (.listed listing)).verifyListed mode caller listing) := by
  unfold verifyListed
  split
  · rename_i hmatches
    -- the listing is the one in the snapshot
    unfold matchesSnapshot at hmatches
    split at hmatches
    · rename_i text snapshot hsnapshot
      simp only [Bool.and_eq_true, beq_iff_eq] at hmatches
      obtain rfl : snapshot.listing = text := hmatches.2
      exact .found hrunning hsnapshot
    · cases hmatches
  · split
    · exact .foreign hrunning
    · exact .reinstall hrunning

theorem installListed_moves (hrunning : world.running = some (.relisting key installer)) :
    Moves world label ((world.record (.listed listing)).installListed key installer listing) := by
  unfold installListed
  split
  · split
    · rename_i hclaims
      simp only [Bool.and_eq_true, decide_eq_true_eq] at hclaims
      exact .taken hrunning hclaims.1
    · exact .mismatch hrunning
  · exact .mismatch hrunning

theorem afterVerify_moves (hrunning : world.running = some (.verified caller)) :
    Moves world label (world.afterVerify caller) := by
  cases caller with
  | restore | apply =>
    simp only [afterVerify]
    split
    · exact .finish nofun
    · split
      all_goals first | exact .finish nofun | exact .fallback
  | setServerId => exact .finish nofun
  | check id => exact .finishCheck hrunning

theorem afterInstall_moves (hrunning : world.running = some (.installed installer)) :
    Moves world label (world.afterInstall installer) := by
  cases installer with
  | verify caller => exact .installed hrunning
  | fallback failure => exact .fellBack

theorem afterInstallFailed_moves (hrunning : world.running = some (.installFailed error installer)) :
    Moves world label (world.afterInstallFailed error installer) := by
  cases installer with
  | verify caller => exact .verifyFailed hrunning
  | fallback failure => exact .fellBack

theorem step_moves (hstep : world.step label = some next) : Moves world label next := by
  cases label with
  | restore | setServerId serverId =>
    cases hstep
    exact .call rfl nofun
  | apply document =>
    cases hstep
    exact .issue
  | check =>
    cases hstep
    unfold check
    split
    · exact .shareCheck
    · exact .newCheck
  | resetConfirmation =>
    cases hstep
    exact .resetConfirmation
  | rulesetChanged table =>
    cases hstep
    exact .rulesetChanged
  | renamed =>
    simp only [step] at hstep
    split at hstep
    · rename_i hrunning
      split at hstep <;> cases hstep
      exact .renamed hrunning
    · cases hstep
  | start =>
    simp only [step] at hstep
    split at hstep <;> cases hstep
    rename_i task queue hrunning hqueue
    exact startTask_moves ⟨hrunning, hqueue⟩
  | _ =>
    simp only [step] at hstep
    split at hstep <;> cases hstep
    all_goals rename_i hrunning
    all_goals first
      | exact restoreRead_moves _
      | exact .checkPassed hrunning
      | exact .finish nofun
      | exact .written hrunning
      | exact verifyListed_moves hrunning
      | exact installListed_moves hrunning
      | exact .listFailed hrunning
      | exact .installFailed (.inl hrunning)
      | exact .installFailed (.inr hrunning)
      | exact .nftApplied hrunning
      | exact afterInstall_moves hrunning
      | exact afterInstallFailed_moves hrunning
      | exact afterVerify_moves hrunning

end

/-! ## The snapshot -/

/-- `install` runs and has not taken its snapshot. -/
def installing (world : FirewallWorld) : Prop :=
  (∃ key caller, world.running = some (.applying key caller)) ∨
    ∃ key caller, world.running = some (.relisting key caller)

/-- The table was found as the snapshot has it, by the last check or by the `install` that runs. -/
def vouched (world : FirewallWorld) : Prop :=
  world.verified = true ∨ ∃ caller, world.running = some (.installed caller)

structure SnapshotHonest (world : FirewallWorld) : Prop where
  claims : ∀ snapshot, world.snapshot = some snapshot →
    parseFirewallComment snapshot.listing = some ⟨snapshot.owner, snapshot.key⟩
  last : world.vouched → ∀ snapshot, world.snapshot = some snapshot →
    lastListed world.log = some (some snapshot.listing)
  cleared : world.installing → world.snapshot = none

namespace SnapshotHonest

/-- Nothing is claimed without a snapshot. -/
theorem of_none (h : world.snapshot = none) : SnapshotHonest world where
  claims snapshot hsnapshot := by simp [h] at hsnapshot
  last _ snapshot hsnapshot := by simp [h] at hsnapshot
  cleared _ := h

/-- The listing just read is the snapshot. -/
theorem fresh {listing : NftListing} {owner key : String} (hsnapshot : next.snapshot = some ⟨owner, key, listing⟩)
    (hclaims : parseFirewallComment listing = some ⟨owner, key⟩) (hlisted : lastListed next.log = some (some listing))
    (hinstalling : ¬ next.installing) : SnapshotHonest next where
  claims snapshot hs := by
    obtain rfl : _ = snapshot := Option.some.inj (hsnapshot.symm.trans hs)
    exact hclaims
  last _ snapshot hs := by
    obtain rfl : _ = snapshot := Option.some.inj (hsnapshot.symm.trans hs)
    exact hlisted
  cleared hi := absurd hi hinstalling

theorem finish (h : SnapshotHonest world) (outcome : FirewallOutcome) :
    SnapshotHonest (world.finish outcome) := { h with
  last hv := h.last (.inl (by simpa [vouched, FirewallWorld.finish] using hv))
  cleared := by simp [installing, FirewallWorld.finish] }

/-- The point is not one of `install`. -/
def outside : FirewallPoint → Bool
  | .applying _ _ => false
  | .relisting _ _ => false
  | .installed _ => false
  | _ => true

/-- An operation goes on outside `install`. -/
theorem goOn (h : SnapshotHonest world) {point : FirewallPoint} (hpoint : outside point = true) :
    SnapshotHonest { world with running := some point } := { h with
  last := by
    rintro (hv | ⟨_, ⟨⟩⟩)
    · exact h.last (.inl hv)
    · cases hpoint
  cleared := by
    rintro (⟨_, _, ⟨⟩⟩ | ⟨_, _, ⟨⟩⟩)
    · cases hpoint
    · cases hpoint }

end SnapshotHonest

theorem snapshotHonest_confirm (h : SnapshotHonest world) (document : FirewallDocument) (epoch : Nat) :
    SnapshotHonest (world.confirm document epoch) := by
  unfold confirm
  split
  · exact { h.goOn (rfl : SnapshotHonest.outside (.listing ..) = true) with }
  · exact h.goOn rfl

theorem snapshotHonest_step (h : SnapshotHonest world) (hstep : world.step label = some next) :
    SnapshotHonest next := by
  have hpopped : ∀ task queue, SnapshotHonest (world.popped task queue) := fun _ _ => { h with }
  cases step_moves hstep with
  | call | issue | newCheck | resetConfirmation | rulesetChanged => exact { h with }
  | shareCheck => exact h
  | restore | apply => exact (hpopped _ _).goOn rfl
  | startCheck | rename => exact { (hpopped _ _).goOn (rfl : SnapshotHonest.outside (.listing ..) = true) with }
  | startEnd => exact (hpopped _ _).finish _
  | inUse => exact snapshotHonest_confirm (hpopped _ _) _ _
  | forget | readNothing | read | reinstall | fallback => exact .of_none rfl
  | checkPassed | installFailed => exact h.goOn rfl
  | renamed => exact { h.goOn (rfl : SnapshotHonest.outside (.syncing ..) = true) with }
  | finish | finishCheck => exact h.finish _
  | written => exact snapshotHonest_confirm (.of_none rfl) _ _
  | found _ hsnapshot => exact .fresh hsnapshot (h.claims _ hsnapshot) rfl (by simp [installing, await])
  | taken _ hclaims => exact .fresh rfl hclaims rfl (by simp [installing])
  | nftApplied hrunning => exact .of_none (h.cleared (.inl ⟨_, _, hrunning⟩))
  | mismatch hrunning => exact .of_none (h.cleared (.inr ⟨_, _, hrunning⟩))
  | foreign | listFailed | verifyFailed =>
    exact { h with last := by simp [vouched, settle, await], cleared := by simp [installing, await] }
  | installed hrunning =>
    exact { h with last := fun _ => h.last (.inr ⟨_, hrunning⟩), cleared := by simp [installing, await] }
  | fellBack => exact { h with last := by simp [vouched, settle, finish], cleared := by simp [installing, finish] }

/-! ## The confirmation -/

def applies (world : FirewallWorld) : List (FirewallDocument × Nat) :=
  (world.running.bind pointApply).toList ++ world.queue.filterMap taskApply

/-- An `apply` called in the current epoch has confirmed a document with this digest. -/
def ConfirmedNow (world : FirewallWorld) (digest : String) : Prop :=
  ∃ sent : FirewallDocument, .issued sent world.epoch ∈ world.log ∧
    .confirmed sent world.epoch ∈ world.log ∧ sent.digest = digest

structure Confirmation (world : FirewallWorld) : Prop where
  issued : ∀ call ∈ world.applies, .issued call.1 call.2 ∈ world.log ∧ call.2 ≤ world.epoch
  ordered : world.applies.Pairwise fun earlier later => earlier.2 ≤ later.2
  /-- What is still to come after a confirmation was called after the confirmed call. -/
  current : world.confirmed = true → ∀ call ∈ world.applies, call.2 = world.epoch
  document : world.confirmed = true → ∀ document, world.document = some document → world.ConfirmedNow document.digest
  file : world.confirmed = true → world.fileUnconfirmed = false → ∀ stored, world.file = some stored →
    world.ConfirmedNow stored.document.digest
  stored : world.fileUnconfirmed = false → ∀ document, world.document = some document →
    ∃ owner, world.file = some ⟨owner, document⟩
  /-- After the rename the file holds the document that is being written. -/
  syncing : ∀ document epoch, world.running = some (.syncing document epoch) →
    ∃ owner, world.file = some ⟨owner, document⟩
  adopted : (lastAdopted world.log).getD none = world.document

theorem ConfirmedNow.mono {digest : String} (h : world.ConfirmedNow digest)
    (hepoch : next.epoch = world.epoch) (hlog : world.log ⊆ next.log) : next.ConfirmedNow digest := by
  obtain ⟨sent, hissued, hconfirmed, hdigest⟩ := h
  exact ⟨sent, hepoch ▸ hlog hissued, hepoch ▸ hlog hconfirmed, hdigest⟩

section

variable (h : Confirmation world)

include h

/-- Calls of `apply` are dropped at most. -/
theorem Confirmation.reduce {running : Option FirewallPoint} {queue : List FirewallTask}
    (happlies : ({ world with running, queue } : FirewallWorld).applies.Sublist world.applies)
    (hsyncing : ∀ document epoch, running = some (.syncing document epoch) →
      world.running = some (.syncing document epoch)) : Confirmation { world with running, queue } := { h with
  issued call hcall := h.issued call (happlies.subset hcall)
  ordered := h.ordered.sublist happlies
  current hconfirmed call hcall := h.current hconfirmed call (happlies.subset hcall)
  syncing document epoch hrunning := h.syncing document epoch (hsyncing document epoch hrunning) }

/-- The running operation goes on, past its confirmation or without one. -/
theorem Confirmation.goOn {running : Option FirewallPoint} (hrunning : running.bind pointApply = none) :
    Confirmation { world with running } := by
  refine h.reduce ?_ ?_
  · rw [FirewallWorld.applies, hrunning]
    exact sublist_append_right ..
  · rintro document epoch rfl
    cases hrunning

theorem Confirmation.install (document : Option FirewallDocument) (installer : InstallCaller) :
    Confirmation (world.install document installer) :=
  { h.goOn (rfl : (some (.applying ..)).bind pointApply = none) with }

/-- An event that says nothing about documents. -/
theorem Confirmation.record {event : FirewallEvent}
    (hevent : lastAdopted (event :: world.log) = lastAdopted world.log) : Confirmation (world.record event) := { h with
  issued call hcall := ⟨mem_cons_of_mem _ (h.issued call hcall).1, (h.issued call hcall).2⟩
  document hc taken htaken := (h.document hc taken htaken).mono rfl (subset_cons_self ..)
  file hc hf stored hs := (h.file hc hf stored hs).mono rfl (subset_cons_self ..)
  adopted := by rw [FirewallWorld.record, hevent, h.adopted] }

theorem Confirmation.finish (outcome : FirewallOutcome) : Confirmation (world.finish outcome) :=
  (h.record rfl).goOn rfl

theorem Confirmation.settle (verified : Bool) (error : Option String) : Confirmation (world.settle verified error) :=
  { h.record (rfl : lastAdopted (.settled verified :: world.log) = _) with }

/-- The class takes a document that is confirmed where it needs to be. -/
theorem Confirmation.useDocument {document : Option FirewallDocument} (owner : Option String)
    (hconfirmed : world.confirmed = true → ∀ taken, document = some taken → world.ConfirmedNow taken.digest)
    (hstored : world.fileUnconfirmed = false → ∀ taken, document = some taken →
      ∃ owner, world.file = some ⟨owner, taken⟩) : Confirmation (world.useDocument document owner) := { h with
  issued call hcall := ⟨mem_cons_of_mem _ (h.issued call hcall).1, (h.issued call hcall).2⟩
  document hc taken htaken := (hconfirmed hc taken htaken).mono rfl (subset_cons_self ..)
  file hc hf stored hs := (h.file hc hf stored hs).mono rfl (subset_cons_self ..)
  stored := hstored
  adopted := rfl }

/-- No document needs no confirmation. -/
theorem Confirmation.useNoDocument : Confirmation (world.useDocument none none) :=
  h.useDocument none nofun nofun

/-- The end of an `apply` that is first in line, in a state whose document has its digest. -/
theorem Confirmation.confirm {middle : FirewallWorld} {document current : FirewallDocument} {epoch : Nat}
    (happlies : world.applies = (document, epoch) :: middle.queue.filterMap taskApply)
    (hepoch : middle.epoch = world.epoch) (hconfirmed : middle.confirmed = world.confirmed)
    (hlog : world.log ⊆ middle.log) (hdocument : middle.document = some current)
    (hdigest : current.digest = document.digest)
    (hstored : middle.fileUnconfirmed = false → ∃ owner, middle.file = some ⟨owner, current⟩)
    (hadopted : (lastAdopted middle.log).getD none = middle.document) :
    Confirmation (middle.confirm document epoch) := by
  have hissued := h.issued
  rw [happlies, forall_mem_cons] at hissued
  obtain ⟨hlater, hordered⟩ := pairwise_cons.mp (happlies ▸ h.ordered)
  -- without the confirmation, and with nothing running
  have hbase : Confirmation { middle with running := none, confirmed := false } :=
    { issued := fun call hcall => ⟨hlog (hissued.2 call hcall).1, hepoch ▸ (hissued.2 call hcall).2⟩
      ordered := hordered
      current := nofun
      document := nofun
      file := nofun
      stored := by
        intro hf taken htaken
        obtain rfl : current = taken := Option.some.inj (hdocument.symm.trans htaken)
        exact hstored hf
      syncing := nofun
      adopted := hadopted }
  unfold FirewallWorld.confirm
  split
  · rename_i hnow
    have hconfirmedNow : ConfirmedNow ({ middle with
        confirmed := true, log := .confirmed document epoch :: middle.log }.verify .active .apply)
        current.digest := by
      refine ⟨document, ?_, ?_, hdigest.symm⟩
      · exact mem_cons_of_mem _ (hlog (hnow ▸ hissued.1.1))
      · exact hnow ▸ mem_cons_self ..
    have hrecorded := (hbase.record (rfl : lastAdopted (.confirmed document epoch :: middle.log) = _)).goOn
      (rfl : (some (.listing .active .apply)).bind pointApply = none)
    refine { hrecorded with current := ?_, document := ?_, file := ?_ }
    · intro _ call hcall
      have hle := (hissued.2 call hcall).2
      have hge := hlater call hcall
      show call.2 = middle.epoch
      omega
    · intro _ taken htaken
      obtain rfl : current = taken := Option.some.inj (hdocument.symm.trans htaken)
      exact hconfirmedNow
    · intro _ hf stored hs
      obtain ⟨owner, hfile⟩ := hstored hf
      obtain rfl : _ = stored := Option.some.inj (hfile.symm.trans hs)
      exact hconfirmedNow
  · rename_i hpast
    -- the call came before the current epoch, so nothing can have been confirmed in it
    have hunconfirmed : middle.confirmed = false := by
      by_contra hc
      have hnow := h.current (by simpa [hconfirmed] using hc) (document, epoch) (by simp [happlies])
      exact hpast (hepoch ▸ hnow)
    have hwaits := hbase.goOn (rfl : (some (.listing .active .apply)).bind pointApply = none)
    rw [← hunconfirmed] at hwaits
    exact hwaits

end

/-- `restore` reads a file that a write left which then failed. -/
def readsFailedWrite (world : FirewallWorld) (label : FirewallLabel) : Bool :=
  match label with
  | .read _ => world.fileUnconfirmed
  | _ => false

variable {task : FirewallTask}

theorem applies_of_pops {queue : List FirewallTask} (h : world.Pops task queue) :
    world.applies = (taskApply task).toList ++ queue.filterMap taskApply := by
  simp only [applies, h.1, h.2, filterMap_cons, Option.bind_none, Option.toList_none, nil_append]
  cases taskApply task <;> rfl

section

variable (h : Confirmation world)

include h

/-- Taking an operation off the queue. -/
theorem Confirmation.pop {queue : List FirewallTask}
    (hpops : world.Pops task queue) : Confirmation (world.popped task queue) := by
  have happlies : ({ world with queue } : FirewallWorld).applies.Sublist world.applies := by
    rw [applies_of_pops hpops]
    simp only [applies, hpops.1]
    exact sublist_append_right ..
  exact (h.reduce happlies fun _ _ hpoint => hpoint).record rfl

/-- A call that adds no `apply`. -/
theorem Confirmation.enqueue (htask : taskApply task = none) : Confirmation (world.enqueue task) := by
  have happlies : (world.enqueue task).applies = world.applies := by simp [applies, FirewallWorld.enqueue, htask]
  exact h.reduce (happlies ▸ Sublist.refl _) fun _ _ hpoint => hpoint

/-- A call of `apply` is the last in line. -/
theorem Confirmation.issue (document : FirewallDocument) :
    Confirmation ((world.enqueue (.apply document world.epoch)).record (.issued document world.epoch)) := by
  have happlies : ((world.enqueue (.apply document world.epoch)).record
      (.issued document world.epoch)).applies = world.applies ++ [(document, world.epoch)] := by
    simp [applies, FirewallWorld.enqueue, FirewallWorld.record, taskApply]
  have hissued : ∀ call ∈ world.applies ++ [(document, world.epoch)],
      .issued call.1 call.2 ∈ FirewallEvent.issued document world.epoch :: world.log ∧ call.2 ≤ world.epoch := by
    intro call hmem
    rcases mem_append.mp hmem with hold | hnew
    · exact ⟨mem_cons_of_mem _ (h.issued call hold).1, (h.issued call hold).2⟩
    · obtain rfl := mem_singleton.mp hnew
      exact ⟨mem_cons_self .., le_refl _⟩
  refine { h.record (rfl : lastAdopted (.issued document world.epoch :: world.log) = _) with
    issued := happlies ▸ hissued, ordered := ?_, current := ?_ }
  · rw [happlies, pairwise_append]
    refine ⟨h.ordered, pairwise_singleton .., ?_⟩
    intro call hold later hnew
    obtain rfl := mem_singleton.mp hnew
    exact (h.issued call hold).2
  · intro hc call hmem
    rw [happlies] at hmem
    rcases mem_append.mp hmem with hold | hnew
    · exact h.current hc call hold
    · obtain rfl := mem_singleton.mp hnew
      rfl

omit h in
theorem applies_of_running {point : FirewallPoint} {call : FirewallDocument × Nat}
    (hrunning : world.running = some point)
    (hpoint : pointApply point = some call) : world.applies = call :: world.queue.filterMap taskApply := by
  simp [applies, hrunning, hpoint]

theorem confirmation_step (hread : world.readsFailedWrite label = false)
    (hstep : world.step label = some next) : Confirmation next := by
  cases step_moves hstep with
  | call hcall => exact h.enqueue hcall
  | issue => exact h.issue _
  | shareCheck => exact h
  | newCheck =>
    have hqueued : Confirmation (world.enqueue (.check world.nextCheck)) := h.enqueue rfl
    exact { hqueued with }
  | resetConfirmation =>
    refine { h with issued := ?_, current := nofun, document := nofun, file := nofun }
    intro call hmem
    exact ⟨(h.issued call hmem).1, Nat.le_succ_of_le (h.issued call hmem).2⟩
  | rulesetChanged => exact { h with }
  | restore hpops => exact (h.pop hpops).goOn rfl
  | startCheck hpops | rename hpops =>
    exact { (h.pop hpops).goOn (rfl : (some (.listing ..)).bind pointApply = none) with }
  | startEnd hpops => exact (h.pop hpops).finish _
  | inUse hpops hinUse =>
    simp only [inUse, Bool.and_eq_true, beq_iff_eq, Option.map_eq_some_iff] at hinUse
    obtain ⟨⟨current, hcurrent, hdigest⟩, -⟩ := hinUse
    exact h.confirm (applies_of_pops hpops) rfl rfl (subset_cons_self ..) hcurrent hdigest
      (fun hf => h.stored hf current hcurrent) h.adopted
  | @apply queue document epoch hpops =>
    have hchecking : Confirmation { world with running := some (.checking document epoch), queue } := by
      refine h.reduce ?_ nofun
      rw [applies_of_pops hpops]
      exact Sublist.refl _
    exact hchecking.record rfl
  | @forget queue owner hpops =>
    have hforgot : Confirmation { world.popped (.setServerId owner) queue with owner } := { h.pop hpops with }
    exact hforgot.useNoDocument.goOn rfl
  | readNothing => exact h.useNoDocument.goOn rfl
  | @read document owner readable hlabel hfile =>
    subst hlabel
    refine (h.useDocument (some owner) ?_ ?_).goOn rfl
    · rintro hc taken ⟨⟩
      exact h.file hc hread _ hfile
    · rintro _ taken ⟨⟩
      exact ⟨_, hfile⟩
  | checkPassed hrunning =>
    refine h.reduce ?_ nofun
    rw [applies_of_running hrunning rfl]
    exact Sublist.refl _
  | finish | finishCheck => exact h.finish _
  | renamed hrunning =>
    have hissued := h.issued
    have hordered := h.ordered
    have hcurrent := h.current
    rw [applies_of_running hrunning rfl] at hissued hordered hcurrent
    refine ⟨hissued, hordered, hcurrent, h.document, nofun, nofun, ?_, h.adopted⟩
    rintro _ _ ⟨⟩
    exact ⟨world.owner, rfl⟩
  | written hrunning =>
    exact h.confirm (applies_of_running hrunning rfl) rfl rfl (subset_cons_self ..) rfl rfl
      (fun _ => h.syncing _ _ hrunning) rfl
  | found | foreign => exact ((h.record rfl).settle _ _).goOn rfl
  | listFailed | installed | verifyFailed => exact (h.settle _ _).goOn rfl
  | mismatch => exact (h.record rfl).goOn rfl
  | reinstall => exact (h.record rfl).install _ _
  | @taken _ _ text =>
    have hlisted : Confirmation (world.record (.listed (some text))) := h.record rfl
    exact { hlisted.goOn (rfl : (some (.installed _)).bind pointApply = none) with }
  | nftApplied => exact { h.goOn (rfl : (some (.relisting ..)).bind pointApply = none) with }
  | installFailed => exact h.goOn rfl
  | fallback => exact h.install _ _
  | fellBack => exact (h.settle _ _).finish _

end

/-! ## Runs -/

/-- The step function without the reads of a file that a failed write left. -/
def settledStep (world : FirewallWorld) (label : FirewallLabel) : Option FirewallWorld :=
  if world.readsFailedWrite label then none else world.step label

variable {serverId : Option String} {file : Option StoredFirewall} {table : Option NftListing}
  {labels : List FirewallLabel}

theorem confirmation_initial : Confirmation (initial serverId file table) where
  issued := nofun
  ordered := List.Pairwise.nil
  current := nofun
  document := nofun
  file := nofun
  stored := nofun
  syncing := nofun
  adopted := rfl

theorem reachable_invariants (h : run settledStep (initial serverId file table) labels = some world) :
    SnapshotHonest world ∧ Confirmation world := by
  have hpreserved : ∀ world label next, SnapshotHonest world ∧ Confirmation world →
      settledStep world label = some next → SnapshotHonest next ∧ Confirmation next := by
    rintro world label next ⟨hsnapshot, hconfirmation⟩ hstep
    obtain ⟨hread, hstep⟩ := Option.ite_none_left_eq_some.mp hstep
    exact ⟨snapshotHonest_step hsnapshot hstep, confirmation_step hconfirmation (by simpa using hread) hstep⟩
  exact run_invariant hpreserved ⟨.of_none rfl, confirmation_initial⟩ h

/-- What `present` promises: the last listing the class read is owned by this server and carries the digest
of the document, which is the one adopted last and confirmed in this epoch. -/
def PresentHonest (world : FirewallWorld) : Prop :=
  ∃ document listing, world.document = some document ∧ lastListed world.log = some (some listing) ∧
    parseFirewallComment listing = some ⟨world.owner, document.digest⟩ ∧
    lastAdopted world.log = some (some document) ∧ world.ConfirmedNow document.digest

theorem presentHonest (hsnapshot : SnapshotHonest world) (hconfirmation : Confirmation world)
    (hpresent : world.present = true) : PresentHonest world := by
  unfold GuestFirewall.present at hpresent
  split at hpresent
  · cases hpresent
  rename_i document hdocument
  simp only [Bool.and_eq_true, beq_iff_eq] at hpresent
  obtain ⟨⟨hverified, hconfirmed⟩, hkey⟩ := hpresent
  unfold GuestFirewall.snapshotKey at hkey
  split at hkey
  · rename_i snapshot hsome
    obtain ⟨howner, hkey⟩ := Option.ite_none_right_eq_some.mp hkey
    have howner : snapshot.owner = world.owner := by simpa using howner
    have hkey : snapshot.key = document.digest := Option.some.inj hkey
    have hadopted := hconfirmation.adopted
    rw [hdocument] at hadopted
    refine ⟨document, snapshot.listing, hdocument, hsnapshot.last (.inl hverified) snapshot hsome, ?_,
      ?_, hconfirmation.document hconfirmed document hdocument⟩
    · rw [hsnapshot.claims snapshot hsome, howner, hkey]
    · cases hlast : lastAdopted world.log with
      | none => simp [hlast] at hadopted
      | some adopted =>
        rw [hlast] at hadopted
        exact congrArg some hadopted
  · cases hkey

/-! ## Refused documents -/

/-- A call to the class, or another program writing the table. -/
def outsideLabel : FirewallLabel → Bool
  | .restore => true
  | .apply _ => true
  | .setServerId _ => true
  | .check => true
  | .resetConfirmation => true
  | .rulesetChanged _ => true
  | _ => false

def changesRuleset : FirewallLabel → Bool
  | .rulesetChanged _ => true
  | _ => false

/-- Everything the class enforces or keeps, apart from the queue and the confirmation. -/
def SameDocument (world next : FirewallWorld) : Prop :=
  (next.owner, next.document, next.documentOwner, next.snapshot, next.verified, next.file) =
    (world.owner, world.document, world.documentOwner, world.snapshot, world.verified, world.file)

/-- Calls only queue, and only others write the table meanwhile. -/
theorem outside_step (houtside : outsideLabel label = true) (hstep : world.step label = some next) :
    SameDocument world next ∧ (changesRuleset label = false → next.table = world.table) := by
  cases label with
  | restore | apply document | setServerId serverId | resetConfirmation =>
    cases hstep
    exact ⟨rfl, fun _ => rfl⟩
  | check =>
    cases hstep
    unfold check
    split <;> exact ⟨rfl, fun _ => rfl⟩
  | rulesetChanged table =>
    cases hstep
    exact ⟨rfl, nofun⟩
  | start | read readable | checkPassed | checkRefused error | checkFailed error | renamed | written
  | writeFailed error | listed listing | listFailed error | nftApplied table | nftFailed error | resume =>
    cases houtside

theorem outside_run (houtside : ∀ label ∈ labels, outsideLabel label = true)
    (hrun : run step world labels = some next) :
    SameDocument world next ∧ ((∀ label ∈ labels, changesRuleset label = false) → next.table = world.table) := by
  induction labels generalizing world with
  | nil =>
    cases hrun
    exact ⟨rfl, fun _ => rfl⟩
  | cons label labels ih =>
    obtain ⟨middle, hstep, hrun⟩ := run_cons.mp hrun
    have hfirst := outside_step (houtside label (mem_cons_self ..)) hstep
    have hrest := ih (fun label hlabel => houtside label (mem_cons_of_mem _ hlabel)) hrun
    refine ⟨Eq.trans hrest.1 hfirst.1, fun hquiet => ?_⟩
    rw [hrest.2 fun label hlabel => hquiet label (mem_cons_of_mem _ hlabel),
      hfirst.2 (hquiet label (mem_cons_self ..))]

/-- An `apply` that waits for the check has changed nothing yet. -/
theorem start_checking {document : FirewallDocument} {epoch : Nat} (hstep : world.step .start = some next)
    (hchecking : next.running = some (.checking document epoch)) :
    SameDocument world next ∧ next.table = world.table := by
  simp only [step] at hstep
  split at hstep <;> cases hstep
  rename_i task queue hrunning hqueue
  cases task with
  | restore | check id => cases hchecking
  | apply document epoch =>
    simp only [startTask] at hchecking ⊢
    split at hchecking
    · cases hchecking
    split at hchecking
    · unfold confirm at hchecking
      split at hchecking <;> cases hchecking
    · rename_i hknown hnew
      rw [if_neg hknown, if_neg hnew]
      exact ⟨rfl, rfl⟩
  | setServerId owner =>
    simp only [startTask] at hchecking
    split at hchecking
    · cases hchecking
    · split at hchecking <;> cases hchecking

/-- From `world`, an `apply` that nft refuses leaves the document, the file and the table as they were: it
starts, calls and outside changes come in, nft refuses. -/
def RefusalChangesNothing (world : FirewallWorld) : Prop :=
  ∀ started middle next document epoch error labels,
    world.step .start = some started → started.running = some (.checking document epoch) →
    (∀ label ∈ labels, outsideLabel label = true) → run step started labels = some middle →
    middle.step (.checkRefused error) = some next →
    next.running = none ∧ SameDocument world next ∧
      ((∀ label ∈ labels, changesRuleset label = false) → next.table = world.table)

theorem refusalChangesNothing (world : FirewallWorld) : RefusalChangesNothing world := by
  intro started middle next document epoch error labels hstart hchecking houtside hrun hrefused
  have hstarted := start_checking hstart hchecking
  have hmiddle := outside_run houtside hrun
  simp only [step] at hrefused
  split at hrefused <;> cases hrefused
  refine ⟨rfl, Eq.trans hmiddle.1 hstarted.1, fun hquiet => ?_⟩
  exact (hmiddle.2 hquiet).trans hstarted.2

/-- Over every interleaving in which no `restore` reads a file that a failed write left: whenever the
firewall reports `present`, it is honest; and a document that nft refuses changes nothing. -/
theorem present_is_honest (serverId : Option String) (file : Option StoredFirewall) (table : Option NftListing)
    (labels : List FirewallLabel) (world : FirewallWorld)
    (hrun : run settledStep (initial serverId file table) labels = some world) :
    (world.present = true → PresentHonest world) ∧ RefusalChangesNothing world := by
  obtain ⟨hsnapshot, hconfirmation⟩ := reachable_invariants hrun
  exact ⟨presentHonest hsnapshot hconfirmation, refusalChangesNothing world⟩

/-! ## Two runs -/

def sampleServerId : String := String.ofList (List.replicate 32 '5')

/-- A document without rules. -/
def emptyDocument (digit : Char) : FirewallDocument := ⟨String.ofList (List.replicate 64 digit), []⟩

/-- The start of the table for a document, as nft lists it. -/
def sampleListing (document : FirewallDocument) : NftListing :=
  "table bridge nyabase_firewall \x7b\n\tcomment \"nyabase egress server=".toList ++
    sampleServerId.toList ++ " digest=".toList ++ document.digest.toList ++
    "\"\n\tchain egress \x7b\n\t\ttype filter hook prerouting priority -190;".toList

/-- `install` and what follows, with nothing in its way. -/
def installLabels (document : FirewallDocument) : List FirewallLabel :=
  [.nftApplied (sampleListing document), .listed (some (sampleListing document)), .resume, .resume]

/-- The Backend sends a document to an agent that had none. -/
def firstApply (document : FirewallDocument) : List FirewallLabel :=
  [.apply document, .start, .checkPassed, .renamed, .written, .listed none] ++ installLabels document

theorem first_apply_honest :
    ∃ world, run settledStep (initial (some sampleServerId) none none) (firstApply (emptyDocument 'a')) =
      some world ∧ world.present = true ∧ PresentHonest world := by
  have hrun : (run settledStep (initial (some sampleServerId) none none)
      (firstApply (emptyDocument 'a'))).map (fun world => world.present) = some true := by decide +kernel
  obtain ⟨world, hworld, hpresent⟩ := Option.map_eq_some_iff.mp hrun
  exact ⟨world, hworld, hpresent, (present_is_honest _ _ _ _ world hworld).1 hpresent⟩

/-- The write of a second document fails after its rename; the Backend reconnects and sends the first one
again; then `restore` takes the second one from the file. -/
def restoreAfterFailedWrite (first second : FirewallDocument) : List FirewallLabel :=
  firstApply first ++ [.apply second, .start, .checkPassed, .renamed, .writeFailed "EIO: i/o error, fsync"] ++
    [.resetConfirmation, .apply first, .start, .listed (some (sampleListing first)), .resume] ++
    [.restore, .start, .read true, .listed (some (sampleListing first))] ++ installLabels second

/-- The digests confirmed in the current epoch. -/
def confirmedDigests (world : FirewallWorld) : List String :=
  world.log.filterMap fun event => match event with
    | .confirmed sent epoch => if epoch = world.epoch then some sent.digest else none
    | _ => none

theorem ConfirmedNow.mem {digest : String} (h : world.ConfirmedNow digest) : digest ∈ world.confirmedDigests := by
  obtain ⟨sent, -, hconfirmed, rfl⟩ := h
  exact mem_filterMap.mpr ⟨_, hconfirmed, by simp⟩

theorem present_without_confirmation : ∃ world, run step (initial (some sampleServerId) none none)
        (restoreAfterFailedWrite (emptyDocument 'a') (emptyDocument 'b')) = some world ∧
      world.present = true ∧ world.document = some (emptyDocument 'b') ∧
      ¬ world.ConfirmedNow (emptyDocument 'b').digest ∧ ¬ PresentHonest world := by
  have hrun : (run step (initial (some sampleServerId) none none)
      (restoreAfterFailedWrite (emptyDocument 'a') (emptyDocument 'b'))).map (fun world =>
        (world.present, world.document, world.confirmedDigests)) =
      some (true, some (emptyDocument 'b'), [(emptyDocument 'a').digest]) := by decide +kernel
  obtain ⟨world, hworld, hresult⟩ := Option.map_eq_some_iff.mp hrun
  obtain ⟨hpresent, hdocument, hdigests⟩ : world.present = true ∧ world.document = some (emptyDocument 'b') ∧
      world.confirmedDigests = [(emptyDocument 'a').digest] := by
    simpa using hresult
  have hunconfirmed : ¬ world.ConfirmedNow (emptyDocument 'b').digest := by
    intro hconfirmed
    have hmem := hconfirmed.mem
    rw [hdigests, mem_singleton] at hmem
    exact absurd hmem (by decide +kernel)
  refine ⟨world, hworld, hpresent, hdocument, hunconfirmed, ?_⟩
  rintro ⟨document, listing, hsome, -, -, -, hconfirmed⟩
  obtain rfl : emptyDocument 'b' = document := Option.some.inj (hdocument.symm.trans hsome)
  exact hunconfirmed hconfirmed

end FirewallWorld

end Nyabase.Agent
