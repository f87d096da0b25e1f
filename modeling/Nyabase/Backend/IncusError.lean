import Nyabase.Lib.AsciiCase

/-!
# Failures of Incus calls: `packages/backend/src/incus/incus-errors.ts`
-/

namespace Nyabase.Backend

open Lib

inductive IncusErrorDisposition where
  | retry
  | managedFailure
  deriving DecidableEq

inductive IncusFailureCode where
  | incusHttpError
  | incusApiError
  | incusInvalidResponse
  | incusJsonError
  | incusNotFound
  | incusUnauthorized
  | incusForbidden
  | incusBadRequest
  | etagConflict
  | instanceBusy
  | operationFailed
  | serverUnreachable
  | incusTimeout
  | agentPolicyDenied
  | agentRequestFailed
  | agentIpv6GuardMissing
  | agentFirewallMissing
  | missingManagedNetworkAddress
  | invalidManagedNetworkType
  | invalidManagedFilterIdentity
  | invalidInstanceSpec
  | invalidInstanceId
  | invalidImageFingerprint
  | invalidVolumeName
  | invalidAttachmentPath
  | imageNotAvailable
  | volumeSecurityShiftedMismatch
  | volumeShrinkBelowUsage
  | rootShrinkBelowUsage
  | rootUsageUnknown
  | volumeShrinkRequiresDetach
  | volumeShrinkRequiresStop
  | volumeResizeUnsupported
  | rootShrinkRequiresStop
  | rootQuotaPending
  | sshDaemonPending
  | guestNotReady
  | restartBaselineMissing
  | restartProofMissing
  | preflightIdentityMismatch
  | preflightCleanupFailed
  | preflightFailed
  | missingStoragePool
  | resourceNeedsAttention
  | volumePlacementPending
  | volumeCatalogAdoptPending
  deriving DecidableEq

/-- `FAILURE_MESSAGES`: the code as the source spells it, with its message. -/
def IncusFailureCode.entry : IncusFailureCode → String × String
  | .incusHttpError => ("INCUS_HTTP_ERROR", "Incus returned an HTTP error")
  | .incusApiError => ("INCUS_API_ERROR", "Incus returned an API error")
  | .incusInvalidResponse => ("INCUS_INVALID_RESPONSE", "Incus returned an invalid response")
  | .incusJsonError => ("INCUS_JSON_ERROR", "Incus returned invalid JSON")
  | .incusNotFound => ("INCUS_NOT_FOUND", "The requested Incus resource was not found")
  | .incusUnauthorized => ("INCUS_UNAUTHORIZED", "Incus authentication was rejected")
  | .incusForbidden => ("INCUS_FORBIDDEN", "Incus authorization was rejected")
  | .incusBadRequest => ("INCUS_BAD_REQUEST", "Incus rejected the request")
  | .etagConflict => ("ETAG_CONFLICT", "The Incus resource changed before it could be updated")
  | .instanceBusy => ("INSTANCE_BUSY", "The Incus instance is busy")
  | .operationFailed => ("OPERATION_FAILED", "The Incus operation failed")
  | .serverUnreachable => ("SERVER_UNREACHABLE", "The Incus server is unreachable")
  | .incusTimeout => ("INCUS_TIMEOUT", "The Incus request timed out")
  | .agentPolicyDenied => ("AGENT_POLICY_DENIED", "The server agent refused the Incus request")
  | .agentRequestFailed => ("AGENT_REQUEST_FAILED",
    "The server agent could not complete the request; it will be retried")
  | .agentIpv6GuardMissing => ("AGENT_IPV6_GUARD_MISSING",
    "The server agent will not bring a guest network interface up until its IPv6 guard is in place; it will be retried")
  | .agentFirewallMissing => ("AGENT_FIREWALL_MISSING",
    "The server agent will not bring a guest network interface up until its egress firewall is in place; it will be retried")
  | .missingManagedNetworkAddress => ("MISSING_MANAGED_NETWORK_ADDRESS", "The managed Incus network device is missing")
  | .invalidManagedNetworkType => ("INVALID_MANAGED_NETWORK_TYPE", "The managed Incus network device is not bridged")
  | .invalidManagedFilterIdentity => ("INVALID_MANAGED_FILTER_IDENTITY",
    "The managed Incus network filter identity is invalid")
  | .invalidInstanceSpec => ("INVALID_INSTANCE_SPEC", "The managed Incus instance specification is invalid")
  | .invalidInstanceId => ("INVALID_INSTANCE_ID", "The managed Incus instance ID is invalid")
  | .invalidImageFingerprint => ("INVALID_IMAGE_FINGERPRINT", "The managed Incus image fingerprint is invalid")
  | .invalidVolumeName => ("INVALID_VOLUME_NAME", "The managed Incus volume name is invalid")
  | .invalidAttachmentPath => ("INVALID_ATTACHMENT_PATH", "The managed Incus attachment path is invalid")
  | .imageNotAvailable => ("IMAGE_NOT_AVAILABLE", "The requested image is not available")
  | .volumeSecurityShiftedMismatch => ("VOLUME_SECURITY_SHIFTED_MISMATCH",
    "The managed volume does not have security.shifted enabled")
  | .volumeShrinkBelowUsage => ("VOLUME_SHRINK_BELOW_USAGE", "The requested volume size is below current usage")
  | .rootShrinkBelowUsage => ("ROOT_SHRINK_BELOW_USAGE", "The requested root disk size is below current usage")
  | .rootUsageUnknown => ("ROOT_USAGE_UNKNOWN",
    "Root disk usage is unknown; shrink is not allowed until usage is observed")
  | .volumeShrinkRequiresDetach => ("VOLUME_SHRINK_REQUIRES_DETACH",
    "A block-backed volume must be detached before shrinking")
  | .volumeShrinkRequiresStop => ("VOLUME_SHRINK_REQUIRES_STOP",
    "A block-backed volume consumer must be stopped before shrinking")
  | .volumeResizeUnsupported => ("VOLUME_RESIZE_UNSUPPORTED",
    "The storage driver does not support the requested resize")
  | .rootShrinkRequiresStop => ("ROOT_SHRINK_REQUIRES_STOP", "The root disk must be stopped before shrinking")
  | .rootQuotaPending => ("ROOT_QUOTA_PENDING", "The root filesystem quota is still being applied")
  | .sshDaemonPending => ("SSH_DAEMON_PENDING", "SSH key is applied but the daemon is not accepting connections yet")
  | .guestNotReady => ("GUEST_NOT_READY", "The guest is not ready for network configuration")
  | .restartBaselineMissing => ("RESTART_BASELINE_MISSING",
    "A restart intent is missing its observed started_at baseline")
  | .restartProofMissing => ("RESTART_PROOF_MISSING", "The restart could not be proven from state.started_at")
  | .preflightIdentityMismatch => ("PREFLIGHT_IDENTITY_MISMATCH",
    "The Incus server identity did not match the registered server")
  | .preflightCleanupFailed => ("PREFLIGHT_CLEANUP_FAILED", "The preflight probe cleanup failed")
  | .preflightFailed => ("PREFLIGHT_FAILED", "The server preflight checks failed")
  | .missingStoragePool => ("MISSING_STORAGE_POOL", "The managed storage pool is unavailable")
  | .resourceNeedsAttention => ("RESOURCE_NEEDS_ATTENTION", "The resource requires operator attention")
  | .volumePlacementPending => ("VOLUME_PLACEMENT_PENDING", "The custom volume is not yet present on this Incus")
  | .volumeCatalogAdoptPending => ("VOLUME_CATALOG_ADOPT_PENDING",
    "Incus has not adopted the existing CephFS directory into this catalog")

def IncusFailureCode.text (code : IncusFailureCode) : String := code.entry.1

def IncusFailureCode.message (code : IncusFailureCode) : String := code.entry.2

/-- An `IncusError`; its details as texts. -/
structure IncusError where
  code : IncusFailureCode
  disposition : IncusErrorDisposition
  details : List (String × String)

/-- What a step of the reconciler throws: an `IncusError`, or an `Error` with its message. -/
inductive StepError where
  | incus (error : IncusError)
  | other (message : String)

namespace StepError

/-- `new IncusError(code, 'managed_failure', details)`. -/
def managed (code : IncusFailureCode) (details : List (String × String)) : StepError :=
  .incus { code, disposition := .managedFailure, details }

/-- `new IncusError(code, 'retry', details)`. -/
def retryable (code : IncusFailureCode) (details : List (String × String)) : StepError :=
  .incus { code, disposition := .retry, details }

def hasCode (code : IncusFailureCode) : StepError → Bool
  | incus error => error.code == code
  | other _ => false

def isNotFound : StepError → Bool := hasCode .incusNotFound

def isTimeoutError : StepError → Bool := hasCode .incusTimeout

/-- `text.includes(word)`. -/
def mentions (word : String) (text : List Char) : Bool :=
  text.tails.any fun rest => word.toList.isPrefixOf rest

/-- `/^\/1\.0\/operations\/[^/]+\/wait(?:\?|$)/`. -/
def isOperationWaitPath (path : List Char) : Bool :=
  let lead := "/1.0/operations/".toList
  let rest := path.drop lead.length
  let tail := rest.dropWhile fun c => c != '/'
  lead.isPrefixOf path && !(rest.takeWhile fun c => c != '/').isEmpty &&
    (tail == "/wait".toList || "/wait?".toList.isPrefixOf tail)

def isOperationWaitNotFound : StepError → Bool
  | incus error =>
    error.code == .incusNotFound &&
      ((error.details.lookup "path").elim false fun path => isOperationWaitPath path.toList)
  | other _ => false

def isMissingCustomVolumeError : StepError → Bool
  | incus error =>
    let text := lower ((error.details.lookup "error").getD "").toList
    (error.code == .incusBadRequest || error.code == .incusNotFound) && ((mentions "storage volume" text &&
          (mentions "not found" text || mentions "no such" text || mentions "missing" text)) ||
        ((["failed to start device", "failed to create device", "failed to add device"].any fun words =>
          mentions words text) && mentions "volume" text))
  | other _ => false

end StepError
end Nyabase.Backend
