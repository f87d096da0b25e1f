import Nyabase.Lib.Interaction
import Nyabase.Backend.InstanceSpec
import Nyabase.Backend.Timestamp

/-!
# Operations on one Incus instance: `packages/backend/src/containers/container-instance-ops.ts`

The reconciler is a program that asks: its calls to Incus, to the guest and to the database are the
questions, and every call may fail.  A call that changes something is asked when it is issued, whatever
comes of it.  The calls into a guest, the shared volume catalog and the SQL of the store are single calls
here; what they return is any answer.
-/

namespace Nyabase.Backend

open Common Lib

/-! ## Documents and rows -/

/-- A JSON value where a byte count is expected: a whole number, a text, or anything else. -/
inductive Reading where
  | number (value : Int)
  | text (value : String)
  | none

/-- `InstanceState`; `rootUsage` is `disk.root.usage`. -/
structure InstanceState where
  status : Option String
  startedAt : Option Rfc3339
  rootUsage : Reading

structure InstanceFull extends ManagedInstanceDocument where
  name : Option String
  status : Option String
  state : Option InstanceState

structure ActualInstance where
  name : String
  document : InstanceFull

/-- A document with its entity tag. -/
structure InstanceResponse where
  document : InstanceFull
  etag : Option String

inductive PowerIntent where
  | running
  | stopped
  deriving DecidableEq

inductive LifecyclePhase where
  | provisioning
  | active
  | deleting
  | failed
  deriving DecidableEq

inductive ResizeFamily where
  | quotaOnline
  | blockBacked
  deriving DecidableEq

structure ContainerRow where
  id : String
  serverId : String
  ownerId : String
  name : String
  serverName : String
  revision : Nat
  imageFingerprint : String
  rootSizeBytes : String
  memBytes : String
  cpuSet : Option (List Nat)
  gpuEnabled : Bool
  gpuState : Option GpuContainerState
  nesting : Bool
  syscallIntercept : Bool
  powerIntent : PowerIntent
  lifecyclePhase : LifecyclePhase
  rootPoolName : String
  rootResizeFamily : ResizeFamily
  parentInterface : Option String
  routedIp : Option String
  networkKey : Option String
  gateway : Option String
  dnsServers : List String
  sshPublicKey : Option String
  deriving DecidableEq

structure ContainerAttachment where
  id : String
  containerPath : String
  readOnly : Bool
  volumeId : String
  incusName : String
  poolName : String
  sizeBytes : String
  shared : Bool
  sharedBackendId : Option String

/-- `ContainerSpecRuntime`. -/
structure ContainerSpecRuntime where
  cpus : List Nat
  limits : ContainerRuntimeLimits

inductive SshStatus where
  | disabled
  | containerStopped
  | running
  | error
  | unknown
  deriving DecidableEq

structure SshFileObservation where
  status : SshStatus
  lastError : Option String

/-- What `ensureSharedCatalogOnServer` found or did. -/
inductive SharedCatalogResult where
  | present
  | posted
  | missing
  | unshifted
  deriving DecidableEq

structure DesiredAttachments where
  stale : Bool
  desired : List ContainerAttachment

/-! ## Calls -/

inductive PowerAction where
  | start
  | stop
  | restart
  deriving DecidableEq

structure GuestNetworkConfig where
  address : String
  prefixLength : Nat
  gateway : String
  dnsServers : List String

/-- What the reconciler asks of Incus, of the guest and of the database. -/
inductive Call where
  | getInstanceFull (name : String)
  | listInstances
  | getInstanceState (name : String)
  | getStorageVolumeState (pool name : String)
  | getStorageVolume (pool name : String)
  | createInstance (name : String) (desired : DesiredInstanceSpec)
  | renameInstance (name newName : String)
  | updateInstanceState (name : String) (action : PowerAction) (force : Bool)
  | updateInstance (name : String) (document : ManagedInstanceDocument) (ifMatch : String)
  | deleteInstance (name : String)
  | ensureSharedCatalogOnServer (attachment : ContainerAttachment)
  | applyGuestNetwork (name : String) (config : GuestNetworkConfig)
  | reconcileSshFile (name : String) (instanceRunning : Bool)
  | reconcileHostCertificate (name : String)
  | readContainer (id : String)
  | readDetachingDevices (containerId : String)
  | settleVolumeBinds (containerId : String) (devices : DeviceMap) (detachedOnly : Bool)
  | rereadDesired (containerId serverId : String) (targetRevision : Nat)
  | markCatalogPresent (volumeId serverId : String)
  | requeueResizeAfterCatalogPost (volumeId serverId postedBytes : String)
  | requeueEnsureForUnshiftedCatalog (volumeId serverId : String)
  | resolveContainerRuntime (serverId ownerId : String)
  | setInstanceName (containerId instanceName : String)
  | releaseContainerState (containerId : String)
  | revertImpossibleRootShrink (containerId : String) (revision actualRootBytes : Nat)
      (usedBytes : Option Nat) (failureCode : String)
  | recordObservation (row : ContainerRow) (actual : InstanceFull) (state : InstanceState)
      (quotaPending : Bool) (ssh : SshFileObservation) (usedBytes : Option Nat)
  | notifyProxies
  | recordCpuSet (containerId : String) (cpus : List Nat)
  | auditMutate (method path : String)
  | auditDrift (diff : ManagedFieldsDiff)
  | recordNotReady (intentId : String)
  | clearNotReady (intentId : String)
  | dateNow
  | signalAborted

/-- What a call returns when it does not fail. -/
@[reducible] def Call.Result : Call → Type
  | getInstanceFull _ => InstanceResponse
  | listInstances => List InstanceFull
  | getInstanceState _ => InstanceState
  | getStorageVolumeState _ _ => Reading
  | ensureSharedCatalogOnServer _ => SharedCatalogResult
  | reconcileSshFile _ _ => SshFileObservation
  | readContainer _ => Option ContainerRow
  | readDetachingDevices _ => List String
  | rereadDesired _ _ _ => DesiredAttachments
  | resolveContainerRuntime _ _ => ContainerSpecRuntime
  | recordNotReady _ => Nat
  | dateNow => Int
  | signalAborted => Bool
  | _ => Unit

@[reducible] def Call.Answer (call : Call) : Type := Except StepError call.Result

/-- A step of the reconciler. -/
abbrev Pass := Program Call.Answer StepError

/-- Make a call; its error is thrown. -/
def request (call : Call) : Pass call.Result := .ask call Program.ofExcept

/-! ## Observation helpers -/

/-- `normalized`: without hyphens, in lower case. -/
def normalized (value : Option String) : List Char :=
  value.elim [] fun text => lower (text.toList.filter fun c => c != '-')

structure ContainerIdentity where
  managed : Bool
  containerId : List Char
  serverId : List Char
  deriving DecidableEq

def managedContainerIdentity (document : InstanceFull) : ContainerIdentity where
  managed := document.config.lookup managedKey == some "true"
  containerId := normalized (document.config.lookup containerIdKey)
  serverId := normalized (document.config.lookup serverIdKey)

/-- `status.toLowerCase() === 'running'`. -/
def isRunningStatus (status : Option String) : Bool :=
  status.elim false fun text => lower text.toList == "running".toList

def running (state : InstanceState) : Bool := isRunningStatus state.status

/-- `powerTransition`; `none` is no transition. -/
def powerTransition (currentStatus : Option String) : PowerIntent → Option PowerAction
  | .running => if isRunningStatus currentStatus then none else some .start
  | .stopped => if isRunningStatus currentStatus then some .stop else none

/-- `restartTransition(...) === 'proven'`. -/
def restartProven (currentStartedAt baselineStartedAt : Option Rfc3339) (currentStatus : Option String) : Bool :=
  isRunningStatus currentStatus && currentStartedAt != baselineStartedAt

/-- `/^\d+$/`. -/
def isPlainDigits (text : List Char) : Bool := !text.isEmpty && text.all isDigit

def observedDiskUsageBytes : Reading → Option Nat
  | .number value => if 0 ≤ value ∧ value ≤ maxSafeInteger then some value.toNat else none
  | .text value => if isPlainDigits value.toList then some (decimalValue value.toList) else none
  | .none => none

/-! ## The desired document of a row -/

def toSpecAttachments (attachments : List ContainerAttachment) : List InstanceSpecAttachment :=
  attachments.map fun attachment =>
    { id := attachment.id
      volumeId := attachment.volumeId
      incusName := attachment.incusName
      poolName := attachment.poolName
      containerPath := attachment.containerPath
      readOnly := attachment.readOnly }

def buildContainerSpec (sha256Hex : String → String) (row : ContainerRow)
    (attachments : List InstanceSpecAttachment) (runtime : ContainerSpecRuntime) :
    Except StepError DesiredInstanceSpec := do
  let base ← buildDesiredInstanceSpec sha256Hex
    { id := row.id
      name := row.name
      serverId := row.serverId
      revision := row.revision
      imageFingerprint := row.imageFingerprint
      cpus := runtime.cpus
      memBytes := row.memBytes
      nesting := row.nesting
      syscallIntercept := row.syscallIntercept
      rootPool := row.rootPoolName
      rootSizeBytes := row.rootSizeBytes
      routedIp := row.routedIp.getD "" }
    { id := row.serverId, name := row.serverName, parentInterface := row.parentInterface.getD "" }
    attachments runtime.limits
  mergeInstanceSpecContributions base (if row.gpuEnabled then [gpuInstanceSpec row.gpuState] else [])

/-! ## Reading -/

def getInstanceFull (name : String) : Pass InstanceResponse := request (.getInstanceFull name)

/-- `readState`: always from the state endpoint. -/
def readState (name : String) : Pass InstanceState := request (.getInstanceState name)

def readRequired (name : String) : Pass ActualInstance := do
  let response ← getInstanceFull name
  return { name, document := response.document }

/-- The positive part of a reading. -/
def positiveUsage (reading : Reading) : Option Nat :=
  (observedDiskUsageBytes reading).filter fun usage => decide (0 < usage)

/-- `observeRootUsage`: from the state, or else from the instance volume. -/
def observeRootUsage (poolName instanceName : String) (state : InstanceState) : Pass (Option Nat) :=
  match positiveUsage state.rootUsage with
  | some usage => return some usage
  | none =>
    Program.tryCatch (do
        let used : Reading ← request (.getStorageVolumeState poolName instanceName)
        match positiveUsage used with
        | some usage => return some usage
        | none => return observedDiskUsageBytes state.rootUsage)
      fun _ => return observedDiskUsageBytes state.rootUsage

/-- Does a read find the instance gone? -/
def readAbsent (name : String) (stillThere : StepError) : Pass Unit := do
  let present ← Program.tryCatch (do
      let _ ← getInstanceFull name
      return true)
    fun error => if error.isNotFound then return false else throw error
  if present then throw stillThere else return ()

def verifyAbsent (name : String) : Pass Unit :=
  readAbsent name (.managed .incusInvalidResponse [("reason", "instance_still_present"), ("name", name)])

/-- The instance carries this container's id, on whatever server. -/
def carriesContainer (containerId : String) (document : InstanceFull) : Bool :=
  (managedContainerIdentity document).managed &&
    (managedContainerIdentity document).containerId == normalized (some containerId)

/-- What `findExpectedOrIdentity` makes of a listing. -/
def identityMatch (expectedName containerId serverId : String) (listed : List InstanceFull) :
    Option ActualInstance × Bool :=
  match listed.find? (carriesContainer containerId) with
  | some item =>
    (some { name := item.name.getD expectedName, document := item },
      (managedContainerIdentity item).serverId != normalized (some serverId))
  | none => (none, false)

/-- The instance under its expected name, or the one that carries the container's identity; the flag says
that it belongs to another server. -/
def findExpectedOrIdentity (expectedName containerId serverId : String) : Pass (Option ActualInstance × Bool) := do
  let expected ← Program.tryCatch (do
      let response ← getInstanceFull expectedName
      return some response.document)
    fun error => if error.isNotFound then return none else throw error
  match expected with
  | some document => return (some { name := expectedName, document }, false)
  | none =>
    let listed : List InstanceFull ← request .listInstances
    return identityMatch expectedName containerId serverId listed

/-! ## Changing -/

/-- A change whose outcome is unknown is settled by one read; a failed read leaves the first error. -/
def readAfterTimeout {α : Type} (mutate read : Pass α) : Pass α :=
  mutate.tryCatch fun error =>
    if error.isTimeoutError || error.isOperationWaitNotFound then read.tryCatch fun _ => throw error
    else throw error

def createInstance (desired : DesiredInstanceSpec) (expectedName : String) : Pass Unit :=
  readAfterTimeout (Program.tryCatch (request (.createInstance expectedName desired)) fun error =>
      if error.isMissingCustomVolumeError then
        throw (.retryable .volumePlacementPending [("reason", "create_missing_volume")])
      else throw error)
    do
      let _ ← getInstanceFull expectedName
      return ()

def renameInstance (actualName expectedName : String) : Pass Unit :=
  if actualName == expectedName then return ()
  else
    readAfterTimeout (request (.renameInstance actualName expectedName)) do
      let _ ← getInstanceFull expectedName
      return ()

/-- Read the state back and check it. -/
def confirmState (name : String) (confirmed : InstanceState → Bool) (message : String) : Pass Unit := do
  let after ← readState name
  if confirmed after then return () else throw (.other message)

/-- `stopPhysicalInstance`: true when it had to be stopped. -/
def stopPhysicalInstance (name : String) : Pass Bool := do
  let state ← readState name
  if !running state then return false
  else
    readAfterTimeout (request (.updateInstanceState name .stop true))
      (confirmState name (fun after => !running after) "INSTANCE_STOP_NOT_CONFIRMED")
    return true

def deletePhysicalInstance (name : String) : Pass Unit :=
  if name == "" then return ()
  else do
    let _ ← stopPhysicalInstance name
    readAfterTimeout (request (.deleteInstance name)) (readAbsent name (.other "INSTANCE_DELETE_NOT_CONFIRMED"))
    verifyAbsent name

/-- `readModifyWriteInstance`: read, change, write back under the tag that was read. -/
def readModifyWriteInstance (name : String)
    (mutate : ManagedInstanceDocument → ManagedInstanceDocument) : Pass Unit := do
  let actual ← getInstanceFull name
  match actual.etag with
  | some etag =>
    if etag == "" then throw (.managed .incusInvalidResponse [("reason", "missing_etag")])
    else
      request (.updateInstance name
        { mutate { actual.document.toManagedInstanceDocument with profiles := [] } with profiles := [] }
        etag)
  | none => throw (.managed .incusInvalidResponse [("reason", "missing_etag")])

def putManagedFields (expectedName : String) (desired : DesiredInstanceSpec) (hasAttachments : Bool) : Pass Unit :=
  Program.tryCatch (readAfterTimeout
      (readModifyWriteInstance expectedName fun document => applyManagedFields document desired)
      do
        let after ← readRequired expectedName
        match compareManagedFields after.document.toManagedInstanceDocument desired with
        | .ok diff => if diff.empty then return () else throw (.other "INSTANCE_UPDATE_NOT_CONFIRMED")
        | .error _ => throw (.other "INSTANCE_UPDATE_NOT_CONFIRMED"))
    fun error =>
      if error.isMissingCustomVolumeError && hasAttachments then
        throw (.retryable .volumePlacementPending [("reason", "put_toctou")])
      else throw error

/-- One of the devices is in the document. -/
def anyPresent (deviceNames : List String) (devices : DeviceMap) : Bool :=
  deviceNames.any fun device => (devices.lookup device).isSome

def removeDevices (name : String) (deviceNames : List String) : Pass Unit :=
  readAfterTimeout (readModifyWriteInstance name fun document =>
      { document with devices := document.devices.filter fun device => !deviceNames.contains device.1 })
    do
      let after ← readRequired name
      if anyPresent deviceNames after.document.devices then throw (.other "INSTANCE_UPDATE_NOT_CONFIRMED")
      else return ()

/-- `setPowerState`: start or stop, confirmed by the state. -/
def setPowerState (name : String) (transition : PowerAction) : Pass Unit :=
  readAfterTimeout (request (.updateInstanceState name transition (transition == .stop))) (confirmState name
      (fun after =>
        (transition == .start && running after) || (transition == .stop && !running after))
      "INSTANCE_POWER_NOT_CONFIRMED")

/-- The state shows an instance that was started at another time than the baseline. -/
def restartShown (baselineStartedAt : Option Rfc3339) (state : InstanceState) : Bool :=
  running state && state.startedAt.isSome && state.startedAt != baselineStartedAt

/-- `restartWithProof`: restart, and ask for a `started_at` other than the baseline as proof. -/
def restartWithProof (name : String) (baselineStartedAt : Option Rfc3339) : Pass Unit := do
  readAfterTimeout (request (.updateInstanceState name .restart true))
    (confirmState name (restartShown baselineStartedAt) "INSTANCE_RESTART_NOT_CONFIRMED")
  let verified ← readState name
  if restartShown baselineStartedAt verified then return ()
  else throw (.managed .restartProofMissing [])

end Nyabase.Backend
