import Nyabase.Backend.InstanceOps

/-!
# The container reconciler

`packages/backend/src/containers/container-reconciler.service.ts` with the steps of
`container-reconcile-steps.ts`: one pass over one intent, from the row it loads to the outcome it reports.
-/

namespace Nyabase.Backend

open Common Lib Program

/-! ## Intents and outcomes -/

inductive ContainerIntentKind where
  | create
  | update
  | power
  | delete
  deriving DecidableEq

/-- The baseline of a restart; its key may be missing, and its value `null`. -/
structure IntentBaseline where
  startedAt : Option (Option Rfc3339)
  deriving DecidableEq

/-- What a container pass reads of its intent.  `action` and `source` are fields of the request,
`createdAt` the parsed time in milliseconds. -/
structure ContainerIntent where
  id : String
  kind : ContainerIntentKind
  resourceId : String
  serverId : Option String
  targetRevision : Nat
  attemptCount : Nat
  createdAt : Option Int
  action : Option String
  source : Option String
  baseline : Option IntentBaseline

def ContainerIntent.isRestart (intent : ContainerIntent) : Bool :=
  intent.kind == .power && intent.action == some "restart"

structure IntentFailure where
  code : String
  message : String

inductive OutcomeKind where
  | succeeded
  | retry
  | failed
  deriving DecidableEq

structure ReconcileOutcome where
  outcome : OutcomeKind
  observedRevision : Option Nat
  failure : Option IntentFailure
  retryAfterMs : Option Nat
  stale : Bool

def failedOutcome (code message : String) : ReconcileOutcome where
  outcome := .failed
  observedRevision := none
  failure := some { code, message }
  retryAfterMs := none
  stale := false

def succeededOutcome (revision : Nat) (stale : Bool) : ReconcileOutcome where
  outcome := .succeeded
  observedRevision := some revision
  failure := none
  retryAfterMs := none
  stale

def retryOutcome (code message : String) (retryAfterMs : Nat) : ReconcileOutcome where
  outcome := .retry
  observedRevision := none
  failure := some { code, message }
  retryAfterMs := some retryAfterMs
  stale := false

/-! ## Root disk shrink -/

inductive RootShrinkDecision where
  | allow
  | usageUnknown
  | usageFloor
  | requiresStop
  deriving DecidableEq

/-- `rootBytes`: the size of the root device, if it is plain digits. -/
def rootBytes (devices : DeviceMap) : Option Nat :=
  ((devices.lookup "root").bind fun root => root.lookup "size").bind fun size =>
    observedDiskUsageBytes (.text size)

/-- `decideRootShrink` (`container-rules.ts`). -/
def decideRootShrink (resizeFamily : ResizeFamily) (actualRootBytes desiredRootBytes : Nat)
    (usedBytes : Option Nat) (isRunning : Bool) : RootShrinkDecision :=
  if actualRootBytes ≤ desiredRootBytes then .allow
  else if resizeFamily == .blockBacked && isRunning then .requiresStop
  else if resizeFamily == .quotaOnline && (usedBytes.getD 0 == 0) then .usageUnknown
  else if usedBytes.elim false fun used => decide (desiredRootBytes < used) then .usageFloor
  else .allow

def rootShrinkDecision (row : ContainerRow) (actual : ActualInstance) (desired : DesiredInstanceSpec)
    (usedBytes : Option Nat) (isRunning : Bool) : RootShrinkDecision :=
  match rootBytes actual.document.devices, rootBytes desired.devices with
  | some actualRoot, some desiredRoot =>
    decideRootShrink row.rootResizeFamily actualRoot desiredRoot usedBytes isRunning
  | _, _ => .allow

/-- The failure a decision is reported as. -/
def RootShrinkDecision.code : RootShrinkDecision → Option IncusFailureCode
  | .allow => none
  | .usageUnknown => some .rootUsageUnknown
  | .usageFloor => some .rootShrinkBelowUsage
  | .requiresStop => some .rootShrinkRequiresStop

/-- Refuse a shrink that would lose data or cannot be judged. -/
def guardRootShrink (row : ContainerRow) (actual : ActualInstance) (desired : DesiredInstanceSpec)
    (state : InstanceState) (usedBytes : Option Nat) : Pass Unit := do
  let decision := rootShrinkDecision row actual desired usedBytes (running state)
  match decision.code with
  | none => return ()
  | some code =>
    when (decision == .usageFloor || decision == .usageUnknown)
      (request (.revertImpossibleRootShrink row.id row.revision
        ((rootBytes actual.document.devices).getD 0) usedBytes code.text))
    throw (.managed code [("containerId", row.id), ("requestedBytes", toString ((rootBytes desired.devices).getD 0)),
      ("usedBytes", usedBytes.elim "null" toString)])

/-! ## Loading -/

/-- `parseCidrPrefix` (`guest-network.adapter.ts`). -/
def parseCidrPrefix (networkKey : String) : Option Nat :=
  match (trim networkKey).splitOn '/' with
  | [base, length] =>
    if isIpv4 base then (decimal? 2 length).filter fun width => decide (width ≤ 32) else none
  | _ => none

/-- What is loaded: the outcome of an intent that cannot be applied, or the row. -/
inductive Loaded where
  | outcome (outcome : ReconcileOutcome)
  | row (row : ContainerRow) (prefixLength : Nat)

/-- A text column that is neither null nor empty. -/
def isPresent (value : Option String) : Bool := value.getD "" != ""

/-- `load`, after the row was read. -/
def loadRow (intent : ContainerIntent) : Option ContainerRow → Loaded
  | none =>
    if intent.kind == .delete then .outcome (succeededOutcome intent.targetRevision true)
    else .outcome (failedOutcome "CONTAINER_NOT_FOUND" "The desired container no longer exists")
  | some row =>
    if some row.serverId != intent.serverId then
      .outcome (failedOutcome "CONTAINER_SERVER_MISMATCH" "The intent server does not own the container")
    else if intent.isRestart && (row.lifecyclePhase == .deleting || row.powerIntent != .running) then
      .outcome { failedOutcome "RESTART_SUPERSEDED"
        "A later stop or delete replaced the restart before it ran" with stale := true }
    else if !intent.isRestart && row.lifecyclePhase != .deleting &&
        decide (intent.targetRevision < row.revision) then
      .outcome (succeededOutcome intent.targetRevision true)
    else if !isPresent row.parentInterface || !isPresent row.routedIp || !isPresent row.networkKey ||
        !isPresent row.gateway then
      .outcome (failedOutcome "MISSING_MANAGED_NETWORK_ADDRESS" "The container has no LAN bridge / claim / gateway")
    else
      match parseCidrPrefix (row.networkKey.getD "") with
      | some prefixLength => .row row prefixLength
      | none =>
        .outcome (failedOutcome "MISSING_MANAGED_NETWORK_ADDRESS" "The container network claim CIDR is invalid")

def load (intent : ContainerIntent) : Pass Loaded := do
  let row : Option ContainerRow ← request (.readContainer intent.resourceId)
  return loadRow intent row

/-! ## Identity -/

/-- `findInstance`; the flag of a foreign server is only logged. -/
def findInstance (expectedName : String) (row : ContainerRow) : Pass (Option ActualInstance) := do
  let found ← findExpectedOrIdentity expectedName row.id row.serverId
  return found.1

/-- The document is labelled managed, with this container's id and this server's. -/
def isOwn (row : ContainerRow) (document : InstanceFull) : Bool :=
  managedContainerIdentity document ==
    { managed := true
      containerId := normalized (some row.id)
      serverId := normalized (some row.serverId) }

/-- `checkIdentity`: the outcome that refuses an instance of someone else. -/
def checkIdentity (actual : ActualInstance) (row : ContainerRow) (expectedName : String) : Option ReconcileOutcome :=
  if !(managedContainerIdentity actual.document).managed then
    some (failedOutcome "UNMANAGED_INSTANCE_NAME_COLLISION"
      ("Incus instance " ++ expectedName ++ " is not managed by nyabase"))
  else if !isOwn row actual.document then
    some (failedOutcome "MANAGED_INSTANCE_IDENTITY_MISMATCH"
      "The managed instance identity does not match the desired container")
  else none

/-! ## Attachments -/

/-- `REFUSED_WRITE_CODES`. -/
def isRefusedWrite (error : StepError) : Bool :=
  error.hasCode .agentPolicyDenied || error.hasCode .incusBadRequest

/-- `unplugDetaching`: false when the unplug was refused. -/
def unplugDetaching (name : String) (detaching : List String) : Pass Bool :=
  Program.tryCatch (do
      removeDevices name detaching
      return true)
    fun error => if isRefusedWrite error then return false else throw error

/-- The unplug of `beforeAttachments`, once the instance is known to be the container's own. -/
def settleDetaching (row : ContainerRow) (actual : ActualInstance) (detaching : List String) : Pass Unit :=
  if anyPresent detaching actual.document.devices then do
    request (.auditMutate "PUT" ("/1.0/instances/" ++ actual.name))
    let unplugged ← unplugDetaching actual.name detaching
    if unplugged then
      let after ← readRequired actual.name
      request (.settleVolumeBinds row.id after.document.devices true)
    else return ()
  else request (.settleVolumeBinds row.id actual.document.devices true)

/-- `actual.document.state?.status ?? actual.document.status`. -/
def documentStatus (document : InstanceFull) : Option String :=
  (document.state.bind InstanceState.status).or document.status

/-- Power off and unplug before the other attachments are looked at. -/
def beforeAttachments (row : ContainerRow) (expectedName : String) : Pass Unit := do
  let detaching : List String ← request (.readDetachingDevices row.id)
  if row.powerIntent != .stopped && detaching.isEmpty then return ()
  else
    let found ← findInstance expectedName row
    match found with
    | none =>
      if detaching.isEmpty then return () else request (.settleVolumeBinds row.id [] true)
    | some actual =>
      if (checkIdentity actual row expectedName).isSome then return ()
      else
        when (row.powerIntent == .stopped &&
            powerTransition (documentStatus actual.document) .stopped == some .stop)
          (setPowerState actual.name .stop)
        if detaching.isEmpty then return () else settleDetaching row actual detaching

/-- `VOLUME_ADOPT_FAIL_AFTER_ATTEMPTS`. -/
def volumeAdoptFailAfterAttempts : Nat := 8

/-- `NOT_READY_FAILURES`. -/
def notReadyFailure (error : StepError) : Option IntentFailure :=
  if error.hasCode .volumePlacementPending then
    some { code := "VOLUME_PLACEMENT_FAILED"
           message := "An attached volume is still not present on the container's server" }
  else if error.hasCode .volumeCatalogAdoptPending then
    some { code := "VOLUME_CATALOG_ADOPT_FAILED"
           message := "Incus did not adopt the existing CephFS directory into this daemon catalog" }
  else none

/-- One attachment's volume must be in the catalog of this daemon. -/
def ensureDesiredCatalog (serverId : String) (attachment : ContainerAttachment) : Pass Unit :=
  if attachment.poolName == "" then
    throw (if attachment.shared then
        .retryable .volumePlacementPending [("volumeId", attachment.volumeId), ("serverId", serverId)]
      else .managed .missingStoragePool [("volumeId", attachment.volumeId), ("serverId", serverId)])
  else if attachment.shared then do
    let result : SharedCatalogResult ← request (.ensureSharedCatalogOnServer attachment)
    when (result == .unshifted) (request (.requeueEnsureForUnshiftedCatalog attachment.volumeId serverId))
    if result == .missing || result == .unshifted then
      throw (.retryable .volumeCatalogAdoptPending [("volumeId", attachment.volumeId), ("serverId", serverId)])
    else
      request (.markCatalogPresent attachment.volumeId serverId)
      when (result == .posted)
        (request (.requeueResizeAfterCatalogPost attachment.volumeId serverId attachment.sizeBytes))
  else
    Program.tryCatch (do
        let _ ← request (.getStorageVolume attachment.poolName attachment.incusName)
        request (.markCatalogPresent attachment.volumeId serverId))
      fun error =>
        if error.hasCode .missingStoragePool then throw error
        else if error.isNotFound || error.isMissingCustomVolumeError then
          throw (.retryable .volumePlacementPending [("volumeId", attachment.volumeId), ("reason", "preflight")])
        else throw error

def ensureDesiredCatalogs (serverId : String) : List ContainerAttachment → Pass Unit
  | [] => return ()
  | attachment :: attachments => do
      ensureDesiredCatalog serverId attachment
      ensureDesiredCatalogs serverId attachments

/-- What the attachment step yields: an outcome that ends the pass, or the attachments. -/
inductive Prepared where
  | outcome (outcome : ReconcileOutcome)
  | attachments (attachments : List ContainerAttachment)

def readyAttachments (intent : ContainerIntent) (row : ContainerRow) : Pass Prepared := do
  let beforeMkdir : DesiredAttachments ←
    request (.rereadDesired row.id row.serverId intent.targetRevision)
  if beforeMkdir.stale && !intent.isRestart then
    return .outcome (succeededOutcome intent.targetRevision true)
  else
    ensureDesiredCatalogs row.serverId beforeMkdir.desired
    let beforePut : DesiredAttachments ←
      request (.rereadDesired row.id row.serverId intent.targetRevision)
    return .attachments beforePut.desired

/-- A volume that is not ready ends the intent only after as many passes as a catalog adopt gets. -/
def prepareAttachments (intent : ContainerIntent) (row : ContainerRow) : Pass Prepared := do
  let prepared ← Program.tryCatch (readyAttachments intent row) fun error =>
    match notReadyFailure error with
    | none => throw error
    | some failure => do
        let passes : Nat ← request (.recordNotReady intent.id)
        if passes ≤ volumeAdoptFailAfterAttempts then throw error
        else return .outcome (failedOutcome failure.code failure.message)
  request (.clearNotReady intent.id)
  return prepared

/-! ## Instance lifecycle -/

/-- `deleteInstance`, with the audit of its intent. -/
def deleteInstance (name : String) : Pass Unit :=
  if name == "" then return ()
  else do
    request (.auditMutate "DELETE" ("/1.0/instances/" ++ name))
    deletePhysicalInstance name

/-- `deleteDesiredInstance`: only an instance labelled managed, on this server. -/
def deleteDesiredInstance (actual : Option ActualInstance) (row : ContainerRow) : Pass Bool :=
  match actual with
  | none => return false
  | some actual =>
    let identity := managedContainerIdentity actual.document
    if !identity.managed then return false
    else if identity.serverId != normalized (some row.serverId) then return false
    else do
      deleteInstance actual.name
      return true

def reconcileDelete (row : ContainerRow) (expectedName : String) : Pass ReconcileOutcome := do
  let actual ← findInstance expectedName row
  let deleted ← deleteDesiredInstance actual row
  if !deleted && actual.isSome then
    return failedOutcome "INSTANCE_DELETE_IDENTITY_MISMATCH"
      "The managed instance could not be safely deleted due to its identity"
  else
    verifyAbsent expectedName
    request (.releaseContainerState row.id)
    return succeededOutcome row.revision false

/-- The instance under its expected name: created or renamed into place first. -/
def ensureInstance (row : ContainerRow) (desired : DesiredInstanceSpec) (expectedName : String) :
    Pass ActualInstance := do
  let found ← findInstance expectedName row
  match found with
  | none =>
    request (.auditMutate "POST" "/1.0/instances")
    createInstance desired expectedName
    request (.setInstanceName row.id expectedName)
    readRequired expectedName
  | some actual =>
    if actual.name != expectedName then
      renameInstance actual.name expectedName
      readRequired expectedName
    else return actual

/-! ## Power -/

/-- Stop first for a change only a stopped instance can take, where the power intent allows it. -/
def stopForDisruptiveChange (intent : ContainerIntent) (row : ContainerRow) (actual : ActualInstance)
    (desired : DesiredInstanceSpec) (diff : ManagedFieldsDiff) (state : InstanceState) : Pass InstanceState :=
  if !running state then return state
  else if row.powerIntent != .stopped && !intent.isRestart then return state
  else if (!diff.empty && gpuRequiresStop diff) ||
      rootShrinkDecision row actual desired none true == .requiresStop then do
    setPowerState actual.name .stop
    readState actual.name
  else return state

def reconcilePower (intent : ContainerIntent) (row : ContainerRow) (name : String)
    (currentState : InstanceState) : Pass InstanceState :=
  if intent.isRestart && running currentState then return currentState
  else
    match powerTransition currentState.status row.powerIntent with
    | none => return currentState
    | some transition => do
        setPowerState name transition
        readState name

/-- Restart, proven by a `started_at` other than the baseline of the request. -/
def reconcileRestart (intent : ContainerIntent) (name : String) (currentState : InstanceState) : Pass Unit :=
  if !intent.isRestart then return ()
  else
    match intent.baseline.bind IntentBaseline.startedAt with
    | none => throw (.managed .restartBaselineMissing [])
    | some baselineStartedAt =>
      if restartProven currentState.startedAt baselineStartedAt currentState.status then return ()
      else restartWithProof name baselineStartedAt

/-! ## Verification -/

/-- `SSH_READY_WAIT_MS`. -/
def sshReadyWaitMs : Int := 3 * 60000

def awaitsSshDaemon (intent : ContainerIntent) (now : Int) : Bool :=
  intent.kind == .create && intent.createdAt.elim false fun created => decide (now - created < sshReadyWaitMs)

/-- `ROOT_QUOTA_MAX_ATTEMPTS`. -/
def rootQuotaMaxAttempts : Nat := 64

def rootQuotaRetryDelay (attemptCount : Nat) : Nat := min 60000 (5000 * 2 ^ min 4 (attemptCount - 1))

/-- The daemon is not up yet and may still come. -/
def sshPending (ssh : SshFileObservation) : Bool :=
  ssh.status != .running && ssh.status != .disabled && ssh.status != .containerStopped &&
    ssh.lastError != some "key_applied_sshd_missing"

def persistObservation (row : ContainerRow) (actual : InstanceFull) (state : InstanceState)
    (quotaPending : Bool) (ssh : SshFileObservation) (usedBytes : Option Nat) : Pass Unit := do
  request (.recordObservation row actual state quotaPending ssh usedBytes)
  Program.tryCatch (request .notifyProxies) fun _ => return ()

/-- The outcome, once the observation is recorded. -/
def settleObserved (intent : ContainerIntent) (row : ContainerRow) (verified : ActualInstance)
    (verifiedState : InstanceState) (ssh : SshFileObservation) : Pass ReconcileOutcome := do
  if rootQuotaPending verified.document.config then
    let message := "Incus has not finished applying the root filesystem quota"
    if rootQuotaMaxAttempts ≤ intent.attemptCount then
      return failedOutcome "ROOT_QUOTA_PENDING" message
    else return retryOutcome "ROOT_QUOTA_PENDING" message (rootQuotaRetryDelay intent.attemptCount)
  else
    let now : Int ← request .dateNow
    if running verifiedState && isPresent row.sshPublicKey && awaitsSshDaemon intent now && sshPending ssh then
      return retryOutcome "SSH_DAEMON_PENDING"
        "SSH key is applied but the daemon is not accepting connections yet" 2000
    else
      request (.settleVolumeBinds row.id verified.document.devices false)
      return succeededOutcome row.revision false

def verifyAndSettle (intent : ContainerIntent) (row : ContainerRow) (desired : DesiredInstanceSpec)
    (expectedName : String) (ssh : SshFileObservation) : Pass ReconcileOutcome := do
  let verified ← readRequired expectedName
  let verifiedState ← readState expectedName
  let matching := match compareManagedFields verified.document.toManagedInstanceDocument desired with
    | .ok diff => diff.empty
    | .error _ => false
  if !matching then
    return failedOutcome "INSTANCE_VERIFY_FAILED"
      "The instance did not match the managed specification after reconciliation"
  else
    let observedUsage ← observeRootUsage row.rootPoolName expectedName verifiedState
    persistObservation row verified.document verifiedState
      (rootQuotaPending verified.document.config) ssh observedUsage
    settleObserved intent row verified verifiedState ssh

/-! ## The pass -/

/-- Best effort: an error is dropped unless the pass was aborted. -/
def convergeHostCertificate (name : String) : Pass Unit :=
  Program.tryCatch (request (.reconcileHostCertificate name)) fun error => do
    let aborted : Bool ← request .signalAborted
    if aborted then throw error else return ()

/-- `sameCpus`. -/
def sameCpus (left : Option (List Nat)) (right : List Nat) : Bool :=
  left.elim false fun cpus => cpus.insertionSort (· ≤ ·) == right

/-- The guest part of a pass: network, SSH file and certificate. -/
def convergeGuest (row : ContainerRow) (expectedName : String) (prefixLength : Nat) : Pass SshFileObservation := do
  let sshState ← readState expectedName
  when (running sshState) do
    request (.auditMutate "POST" ("/1.0/instances/" ++ expectedName ++ "/exec"))
    request (.applyGuestNetwork expectedName
      { address := row.routedIp.getD "", prefixLength, gateway := row.gateway.getD ""
        dnsServers := row.dnsServers })
  let ssh : SshFileObservation ← request (.reconcileSshFile expectedName (running sshState))
  when (ssh.status == .running) (convergeHostCertificate expectedName)
  return ssh

/-- The managed write of a pass, when there is a difference. -/
def writeManagedFields (intent : ContainerIntent) (desired : DesiredInstanceSpec) (expectedName : String)
    (hasAttachments : Bool) (diff : ManagedFieldsDiff) : Pass Unit :=
  if diff.empty then return ()
  else do
    request (.auditMutate "PUT" ("/1.0/instances/" ++ expectedName))
    when (intent.source == some "full_scan") (request (.auditDrift diff))
    putManagedFields expectedName desired hasAttachments

/-- The rest of a pass, once the managed fields are written. -/
def convergePower (intent : ContainerIntent) (row : ContainerRow) (prefixLength : Nat)
    (desired : DesiredInstanceSpec) (expectedName : String) (cpus : List Nat) (state : InstanceState) :
    Pass ReconcileOutcome := do
  let powered ← reconcilePower intent row expectedName state
  reconcileRestart intent expectedName powered
  let ssh ← convergeGuest row expectedName prefixLength
  let outcome ← verifyAndSettle intent row desired expectedName ssh
  when (outcome.outcome == .succeeded && !sameCpus row.cpuSet cpus) (request (.recordCpuSet row.id cpus))
  return outcome

/-- The pass from the compared instance on. -/
def convergeFields (intent : ContainerIntent) (row : ContainerRow) (prefixLength : Nat)
    (desired : DesiredInstanceSpec) (expectedName : String) (cpus : List Nat) (hasAttachments : Bool)
    (actual : ActualInstance) (diff : ManagedFieldsDiff) (read : InstanceState) : Pass ReconcileOutcome := do
  let state ← stopForDisruptiveChange intent row actual desired diff read
  let usedBytes ← observeRootUsage row.rootPoolName expectedName state
  guardRootShrink row actual desired state usedBytes
  if !diff.empty && running state && gpuRequiresStop diff then
    return failedOutcome "GPU_MUTATION_REQUIRES_STOP" "GPU assignment changes require a stopped instance"
  else
    writeManagedFields intent desired expectedName hasAttachments diff
    convergePower intent row prefixLength desired expectedName cpus state

/-- The pass over an instance that should exist. -/
def convergeInstance (intent : ContainerIntent) (row : ContainerRow) (prefixLength : Nat)
    (desired : DesiredInstanceSpec) (expectedName : String) (cpus : List Nat) (hasAttachments : Bool) :
    Pass ReconcileOutcome := do
  let actual ← ensureInstance row desired expectedName
  match checkIdentity actual row expectedName with
  | some refused => return refused
  | none =>
    let state ← readState expectedName
    match compareManagedFields actual.document.toManagedInstanceDocument desired with
    | .error failure => return failedOutcome failure.code.text failure.code.message
    | .ok diff =>
      convergeFields intent row prefixLength desired expectedName cpus hasAttachments actual diff state

/-- A pass over a loaded row. -/
def reconcileRow (sha256Hex : String → String) (intent : ContainerIntent) (row : ContainerRow)
    (prefixLength : Nat) : Pass ReconcileOutcome := do
  let expectedName ← Program.ofExcept (deriveInstanceName row.id)
  if row.lifecyclePhase == .deleting || intent.kind == .delete then reconcileDelete row expectedName
  else
    beforeAttachments row expectedName
    let prepared ← prepareAttachments intent row
    match prepared with
    | .outcome outcome => return outcome
    | .attachments attachments =>
      let runtime : ContainerSpecRuntime ← request (.resolveContainerRuntime row.serverId row.ownerId)
      let desired ← Program.ofExcept (buildContainerSpec sha256Hex row (toSpecAttachments attachments) runtime)
      convergeInstance intent row prefixLength desired expectedName runtime.cpus (!attachments.isEmpty)

/-- One pass over one intent; `client` says whether the server has a connection. -/
def reconcile (sha256Hex : String → String) (client : Bool) (intent : ContainerIntent) : Pass ReconcileOutcome :=
  if !client then throw (.retryable .serverUnreachable [("reason", "missing_client")])
  else do
    let loaded ← load intent
    match loaded with
    | .outcome outcome => return outcome
    | .row row prefixLength => reconcileRow sha256Hex intent row prefixLength

end Nyabase.Backend
