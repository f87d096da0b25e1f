import Nyabase.Backend.ContainerReconcile

/-!
# What the steps of a pass can call

Which instance a call changes, and for each step of the reconciler the calls it is made of: reads and calls
into the guest and the database, and changes of the one instance the step was given.
-/

namespace Nyabase.Backend

open Lib Program

/-- What a pass asked and was answered, newest first. -/
abbrev History := List (Exchange Call.Answer)

/-- The instance a call changes: a `PUT`, a state change, a rename or a delete. -/
def Call.target : Call → Option String
  | renameInstance name _ => some name
  | updateInstanceState name _ _ => some name
  | updateInstance name _ _ => some name
  | deleteInstance name => some name
  | _ => none

/-- The row an exchange read. -/
def rowIn : Exchange Call.Answer → Option ContainerRow
  | ⟨.readContainer _, .ok read⟩ => read
  | _ => none

/-- The row of the pass: the first one it read. -/
def rowOf : History → Option ContainerRow
  | [] => none
  | exchange :: earlier => (rowOf earlier).or (rowIn exchange)

/-- What a step leaves behind that keeps the row of the pass known. -/
abbrev RowKept {α : Type} (row : ContainerRow) (later : History) (_ : α) : Prop := rowOf later = some row

theorem rowOf_cons {row : ContainerRow} {history : History} (h : rowOf history = some row)
    (exchange : Exchange Call.Answer) : rowOf (exchange :: history) = some row := by
  rw [rowOf, h, Option.some_or]

/-- Calls of a kind: all that change no instance. -/
def Harmless (kind : Call → Prop) : Prop := ∀ call, call.target = none → kind call

/-- Calls of a kind: every state change of the instance. -/
def Powers (kind : Call → Prop) (name : String) : Prop :=
  ∀ action force, kind (.updateInstanceState name action force)

/-- Calls of a kind: every write of the instance. -/
def Writes (kind : Call → Prop) (name : String) : Prop :=
  ∀ document tag, kind (.updateInstance name document tag)

variable {kind : Call → Prop} {name : String}

/-- A call is made as the contract says, and returns or throws what is answered. -/
theorem ensures_request {call : Call} {contract : Contract Call.Answer} {history : History}
    {post : History → call.Result → Prop} {failed : History → StepError → Prop} (hasks : contract.asks history call)
    (hpost : ∀ value, contract.answers history call (.ok value) → post (⟨call, .ok value⟩ :: history) value)
    (hfailed : ∀ error, contract.answers history call (.error error) → failed (⟨call, .error error⟩ :: history) error) :
    (request call).Ensures contract post failed history := by
  refine ⟨hasks, fun answer hanswer => ?_⟩
  cases answer with
  | ok value => exact hpost value hanswer
  | error error => exact hfailed error hanswer

theorem request_within {call : Call} (h : kind call) : (request call).Within kind :=
  ⟨h, fun answer => within_ofExcept answer⟩

theorem Harmless.request {call : Call} (hread : Harmless kind) (h : call.target = none) :
    (request call).Within kind :=
  request_within (hread call h)

theorem readAfterTimeout_within {α : Type} {mutate read : Pass α} (hm : mutate.Within kind)
    (hr : read.Within kind) : (readAfterTimeout mutate read).Within kind := by
  refine hm.tryCatch fun error => .ite ?_ (within_throw error)
  exact hr.tryCatch fun _ => within_throw error

theorem loadRow_row {intent : ContainerIntent} {read : Option ContainerRow} {row : ContainerRow}
    {prefixLength : Nat} (h : loadRow intent read = .row row prefixLength) : read = some row := by
  unfold loadRow at h
  split at h
  · split at h <;> cases h
  · repeat' split at h
    all_goals cases h
    rfl

variable {row : ContainerRow} {intent : ContainerIntent} {desired : DesiredInstanceSpec} {state : InstanceState}
  {document : InstanceFull} {diff : ManagedFieldsDiff} {hasAttachments : Bool} {expectedName : String}
  {prefixLength : Nat}

/-! ## Operations on one instance -/

section
variable (hstate : kind (.getInstanceState name))
include hstate

theorem readState_within : (readState name).Within kind := request_within hstate

theorem confirmState_within {confirmed : InstanceState → Bool} {message : String} :
    (confirmState name confirmed message).Within kind :=
  (readState_within hstate).bind fun _ => .ite (within_pure ()) (within_throw _)

theorem setPowerState_within (hpower : Powers kind name) {transition : PowerAction} :
    (setPowerState name transition).Within kind :=
  readAfterTimeout_within (request_within (hpower _ _)) (confirmState_within hstate)

end

section
variable (hread : Harmless kind)
include hread

theorem getInstanceFull_within : (getInstanceFull name).Within kind := hread.request rfl

theorem readRequired_within : (readRequired name).Within kind :=
  (getInstanceFull_within hread).bind fun _ => within_pure _

theorem readAbsent_within {error : StepError} : (readAbsent name error).Within kind := by
  refine .bind (.tryCatch ?_ fun _ => .ite (within_pure _) (within_throw _)) fun _ =>
    .ite (within_throw _) (within_pure _)
  exact (getInstanceFull_within hread).bind fun _ => within_pure _

theorem observeRootUsage_within {pool : String} : (observeRootUsage pool name state).Within kind := by
  unfold observeRootUsage
  split
  · exact within_pure _
  · refine .tryCatch (.bind (hread.request rfl) fun used => ?_) fun _ => within_pure _
    split <;> exact within_pure _

theorem findInstance_within : (findInstance expectedName row).Within kind := by
  refine .bind (.bind (.tryCatch ?_ fun _ => ?_) fun found => ?_) fun _ => within_pure _
  · exact (getInstanceFull_within hread).bind fun _ => within_pure _
  · exact .ite (within_pure _) (within_throw _)
  · cases found with
    | some document => exact within_pure _
    | none => exact (hread.request rfl).bind fun _ => within_pure _

theorem createInstance_within : (createInstance desired expectedName).Within kind := by
  refine readAfterTimeout_within ?_ ((getInstanceFull_within hread).bind fun _ => within_pure _)
  refine .tryCatch (hread.request rfl) fun _ => ?_
  exact .ite (within_throw _) (within_throw _)

theorem renameInstance_within {newName : String} (hrename : kind (.renameInstance name newName)) :
    (renameInstance name newName).Within kind := by
  refine .ite (within_pure _) (readAfterTimeout_within (request_within hrename) ?_)
  exact (getInstanceFull_within hread).bind fun _ => within_pure _

theorem restartWithProof_within (hpower : Powers kind name) {baseline : Option Rfc3339} :
    (restartWithProof name baseline).Within kind := by
  refine .bind (readAfterTimeout_within (request_within (hpower _ _))
    (confirmState_within (hread _ rfl))) fun _ => ?_
  exact (readState_within (hread _ rfl)).bind fun _ => .ite (within_pure _) (within_throw _)

theorem deletePhysicalInstance_within (hpower : Powers kind name) (hdelete : kind (.deleteInstance name)) :
    (deletePhysicalInstance name).Within kind := by
  refine .ite (within_pure ()) (.bind ?_ fun _ => .bind ?_ fun _ => ?_)
  · refine (readState_within (hread _ rfl)).bind fun state => .ite (within_pure _) ?_
    exact (readAfterTimeout_within (request_within (hpower _ _))
      (confirmState_within (hread _ rfl))).bind fun _ => within_pure _
  · exact readAfterTimeout_within (request_within hdelete) (readAbsent_within hread)
  · exact readAbsent_within hread

section

variable (hwrite : Writes kind name)

include hwrite

theorem readModifyWriteInstance_within {mutate : ManagedInstanceDocument → ManagedInstanceDocument} :
    (readModifyWriteInstance name mutate).Within kind := by
  refine (getInstanceFull_within hread).bind fun actual => ?_
  cases actual.etag with
  | none => exact within_throw _
  | some etag => exact .ite (within_throw _) (request_within (hwrite _ _))

theorem putManagedFields_within : (putManagedFields name desired hasAttachments).Within kind := by
  refine .tryCatch (readAfterTimeout_within (readModifyWriteInstance_within hread hwrite) ?_)
    fun _ => .ite (within_throw _) (within_throw _)
  refine (readRequired_within hread).bind fun after => ?_
  cases compareManagedFields after.document.toManagedInstanceDocument desired with
  | error failure => exact within_throw _
  | ok diff => exact .ite (within_pure _) (within_throw _)

theorem removeDevices_within {deviceNames : List String} : (removeDevices name deviceNames).Within kind := by
  refine readAfterTimeout_within (readModifyWriteInstance_within hread hwrite) ?_
  exact (readRequired_within hread).bind fun _ => .ite (within_throw _) (within_pure _)

end

/-! ## Steps of the reconciler -/

theorem guardRootShrink_within {actual : ActualInstance} {usedBytes : Option Nat} :
    (guardRootShrink row actual desired state usedBytes).Within kind := by
  unfold guardRootShrink
  dsimp only
  split
  · exact within_pure _
  · exact .bind (.when _ (hread.request rfl)) fun _ => within_throw _

theorem ensureDesiredCatalogs_within {serverId : String} (attachments : List ContainerAttachment) :
    (ensureDesiredCatalogs serverId attachments).Within kind := by
  induction attachments with
  | nil => exact within_pure _
  | cons attachment attachments ih =>
    refine .bind (.ite (within_throw _) (.ite ?_ ?_)) fun _ => ih
    · refine .bind (hread.request rfl) fun result => ?_
      refine .bind (.when _ (hread.request rfl)) fun _ => ?_
      refine .ite (within_throw _) (.bind (hread.request rfl) fun _ => ?_)
      exact .when _ (hread.request rfl)
    · refine .tryCatch (.bind (hread.request rfl) fun _ => ?_) fun _ => ?_
      · exact hread.request rfl
      · exact .ite (within_throw _) (.ite (within_throw _) (within_throw _))

theorem prepareAttachments_within : (prepareAttachments intent row).Within kind := by
  refine .bind (.tryCatch ?_ fun error => ?_) fun _ =>
    .bind (hread.request rfl) fun _ => within_pure _
  · refine .bind (hread.request rfl) fun beforeMkdir => .ite (within_pure _) ?_
    refine .bind (ensureDesiredCatalogs_within hread _) fun _ => ?_
    exact .bind (hread.request rfl) fun _ => within_pure _
  · cases notReadyFailure error with
    | none => exact within_throw _
    | some failure =>
      exact .bind (hread.request rfl) fun _ => .ite (within_throw _) (within_pure _)

theorem stopForDisruptiveChange_within (hpower : Powers kind name) :
    (stopForDisruptiveChange intent row ⟨name, document⟩ desired diff state).Within kind := by
  refine .ite (within_pure _) (.ite (within_pure _) (.ite ?_ (within_pure _)))
  exact .bind (setPowerState_within (hread _ rfl) hpower) fun _ => readState_within (hread _ rfl)

theorem settleDetaching_within (hwrite : Writes kind name)
    {detaching : List String} : (settleDetaching row ⟨name, document⟩ detaching).Within kind := by
  refine .ite (.bind (hread.request rfl) fun _ => ?_) (hread.request rfl)
  refine .bind (.tryCatch ?_ fun _ => .ite (within_pure _) (within_throw _)) fun _ =>
    .ite ?_ (within_pure _)
  · exact .bind (removeDevices_within hread hwrite) fun _ => within_pure _
  · exact .bind (readRequired_within hread) fun _ => hread.request rfl

theorem writeManagedFields_within (hwrite : Writes kind name) :
    (writeManagedFields intent desired name hasAttachments diff).Within kind := by
  refine .ite (within_pure _) (.bind (hread.request rfl) fun _ => ?_)
  refine .bind (.when _ (hread.request rfl)) fun _ => ?_
  exact putManagedFields_within hread hwrite

theorem reconcilePower_within (hpower : Powers kind name) : (reconcilePower intent row name state).Within kind := by
  refine .ite (within_pure _) ?_
  cases powerTransition state.status row.powerIntent with
  | none => exact within_pure _
  | some transition =>
    exact .bind (setPowerState_within (hread _ rfl) hpower) fun _ => readState_within (hread _ rfl)

theorem reconcileRestart_within (hpower : Powers kind name) : (reconcileRestart intent name state).Within kind := by
  refine Within.ite (within_pure _) ?_
  cases intent.baseline.bind IntentBaseline.startedAt with
  | none => exact within_throw _
  | some baseline => exact Within.ite (within_pure _) (restartWithProof_within hread hpower)

theorem convergeGuest_within : (convergeGuest row expectedName prefixLength).Within kind := by
  refine .bind (readState_within (hread _ rfl)) fun state => ?_
  refine .bind (.when _ (.bind (hread.request rfl) fun _ =>
    hread.request rfl)) fun _ => ?_
  refine .bind (hread.request rfl) fun ssh => ?_
  refine .bind (.when _ (.tryCatch (hread.request rfl) fun _ => ?_)) fun _ =>
    within_pure _
  exact .bind (hread.request rfl) fun _ => .ite (within_throw _) (within_pure _)

theorem verifyAndSettle_within {ssh : SshFileObservation} :
    (verifyAndSettle intent row desired expectedName ssh).Within kind := by
  refine .bind (readRequired_within hread) fun verified => ?_
  refine .bind (readState_within (hread _ rfl)) fun state => .ite (within_pure _) ?_
  refine .bind (observeRootUsage_within hread) fun usage => ?_
  refine .bind (.bind (hread.request rfl) fun _ =>
    .tryCatch (hread.request rfl) fun _ => within_pure _) fun _ => ?_
  refine .ite (.ite (within_pure _) (within_pure _)) ?_
  refine .bind (hread.request rfl) fun now => .ite (within_pure _) ?_
  exact .bind (hread.request rfl) fun _ => within_pure _

theorem reconcileDelete_within (hpower : ∀ name, Powers kind name) (hdelete : ∀ name, kind (.deleteInstance name)) :
    (reconcileDelete row expectedName).Within kind := by
  refine (findInstance_within hread).bind fun actual => .bind ?_ fun deleted => ?_
  · cases actual with
    | none => exact within_pure _
    | some actual =>
      refine .ite (within_pure _) (.ite (within_pure _) (.bind ?_ fun _ => within_pure _))
      refine .ite (within_pure _) ((hread.request rfl).bind fun _ => ?_)
      exact deletePhysicalInstance_within hread (hpower _) (hdelete _)
  · refine .ite (within_pure _) ((readAbsent_within hread).bind fun _ => ?_)
    exact (hread.request rfl).bind fun _ => within_pure _

theorem convergePower_within (hpower : Powers kind name) {cpus : List Nat} :
    (convergePower intent row prefixLength desired name cpus state).Within kind := by
  refine .bind (reconcilePower_within hread hpower) fun powered => ?_
  refine .bind (reconcileRestart_within hread hpower) fun _ => ?_
  refine .bind (convergeGuest_within hread) fun ssh => ?_
  refine .bind (verifyAndSettle_within hread) fun outcome => ?_
  exact .bind (.when _ (hread.request rfl)) fun _ => within_pure _

end

/-! ## A sample container -/

/-- A container that should run, on its server. -/
def sampleRow : ContainerRow where
  id := "11111111-1111-4111-8111-111111111111"
  serverId := "22222222-2222-4222-8222-222222222222"
  ownerId := "33333333-3333-4333-8333-333333333333"
  name := "box"
  serverName := "host"
  revision := 3
  imageFingerprint := "aaaaaaaaaaaaaaaaaaaaaaaaaaaaaaaaaaaaaaaaaaaaaaaaaaaaaaaaaaaaaaaa"
  rootSizeBytes := "5000000000"
  memBytes := "1000000000"
  cpuSet := some [0]
  gpuEnabled := false
  gpuState := none
  nesting := true
  syscallIntercept := true
  powerIntent := .running
  lifecyclePhase := .active
  rootPoolName := "pool"
  rootResizeFamily := .quotaOnline
  parentInterface := some "br0"
  routedIp := some "10.0.0.9"
  networkKey := some "10.0.0.0/24"
  gateway := some "10.0.0.1"
  dnsServers := []
  sshPublicKey := none

def sampleName : String := "nyc-11111111111141118111111111111111"

def sampleIntent (kind : ContainerIntentKind) : ContainerIntent where
  id := "intent"
  kind
  resourceId := sampleRow.id
  serverId := some sampleRow.serverId
  targetRevision := 3
  attemptCount := 1
  createdAt := none
  action := none
  source := none
  baseline := none

def sampleRuntime : ContainerSpecRuntime where
  cpus := [0]
  limits := { processes := 100, networkIngressMbit := 1, networkEgressMbit := 1, diskReadMBps := 1, diskWriteMBps := 1 }

/-- What the database of one container answers; every call to Incus fails. -/
def storeAnswer (row : ContainerRow) : (call : Call) → call.Answer
  | .readContainer _ => .ok (some row)
  | .readDetachingDevices _ => .ok []
  | .rereadDesired _ _ _ => .ok { stale := false, desired := [] }
  | .resolveContainerRuntime _ _ => .ok sampleRuntime
  | .clearNotReady _ => .ok ()
  | .auditMutate _ _ => .ok ()
  | _ => .error (.managed .operationFailed [])

end Nyabase.Backend
