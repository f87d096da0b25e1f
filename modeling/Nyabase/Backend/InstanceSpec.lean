import Nyabase.Backend.IncusError
import Nyabase.Common.Firewall

/-!
# Instance documents: `packages/backend/src/incus/instance-spec.ts`

The instance document the platform wants for a container, the comparison of its managed fields with the
document Incus has, and the document a write puts back.  String maps are the lists of their entries.  The
digest behind the host-side interface name is a parameter.
-/

namespace Nyabase.Backend

open Common Lib String

abbrev StringMap := List (String × String)
abbrev DeviceMap := List (String × StringMap)

/-! ## Checks on single values -/

/-- `Number.MAX_SAFE_INTEGER`. -/
def maxSafeInteger : Nat := 2 ^ 53 - 1

/-- `fail(code, reason)`. -/
def specFailure {α : Type} (code : IncusFailureCode) (reason : String) : Except StepError α :=
  .error (.managed code [("reason", reason)])

def isHexChar (c : Char) : Bool := isLowerHex c.toLower

/-- `UUID_PATTERN`. -/
def isUuid (value : List Char) : Bool :=
  match value.splitOn '-' with
  | [a, b, c, d, e] =>
    [a, b, c, d, e].all (·.all isHexChar) && [a, b, c, d, e].map List.length == [8, 4, 4, 4, 12] &&
      (c.head?.elim false fun v => ['1', '2', '3', '4', '5'].contains v) &&
      (d.head?.elim false fun v => ['8', '9', 'a', 'b'].contains v.toLower)
  | _ => false

/-- `UUID32_PATTERN`. -/
def isUuid32 (value : List Char) : Bool := value.length == 32 && value.all isHexChar

def uuid32 (value label : String) : Except StepError String :=
  if isUuid value.toList || isUuid32 value.toList then
    .ok (ofList (lower (value.toList.filter fun c => c != '-')))
  else specFailure .invalidInstanceId label

/-- `/^(?:0|[1-9][0-9]*)$/` and above zero: the text itself. -/
def positiveInteger (value : String) (code : IncusFailureCode) (label : String) : Except StepError String :=
  if !value.toList.isEmpty && value.toList.all isDigit && value.toList.head? != some '0' then .ok value
  else specFailure code label

def nonNegativeInteger (value : Nat) (label : String) : Except StepError Nat :=
  if value ≤ maxSafeInteger then .ok value else specFailure .invalidInstanceSpec label

/-- `[\u0000-\u001f\u007f]`. -/
def isControlChar (c : Char) : Bool := c.toNat < 0x20 || c.toNat == 0x7f

def validateName (value label : String) : Except StepError String :=
  if value != "" && !(value.toList.any fun c => isControlChar c || c == '/' || c == '\\') then .ok value
  else specFailure .invalidInstanceSpec label

/-- One decimal octet as `isIP` takes it: at most 255 and no leading zero. -/
def isIpv4Octet (text : List Char) : Bool :=
  (octet? text).isSome && (text.length == 1 || text.head? != some '0')

/-- `isIP(value) === 4`. -/
def isIpv4 (value : List Char) : Bool :=
  (value.splitOn '.').length == 4 && (value.splitOn '.').all isIpv4Octet

def validateIpv4 (value label : String) : Except StepError String :=
  if isIpv4 value.toList then .ok value else specFailure .invalidInstanceSpec label

/-! ## CPU sets -/

/-- The maximal runs of consecutive numbers of a sorted list, from `start` to its first gap. -/
def cpuRuns (start previous : Nat) : List Nat → List (Nat × Nat)
  | [] => [(start, previous)]
  | cpu :: rest =>
    if cpu == previous + 1 then cpuRuns start cpu rest else (start, previous) :: cpuRuns cpu cpu rest

/-- `[...new Set(cpus)].sort(...)`. -/
def sortedCpus (cpus : List Nat) : List Nat := (cpus.dedup).insertionSort (· ≤ ·)

def formatCpuSet (cpus : List Nat) : Except StepError String :=
  match sortedCpus cpus with
  | [] => specFailure .invalidInstanceSpec "cpu_set"
  | start :: rest =>
    if (start :: rest).any fun cpu => decide (maxSafeInteger < cpu) then
      specFailure .invalidInstanceSpec "cpu_set"
    else .ok (",".intercalate ((cpuRuns start start rest).map fun run => s!"{run.1}-{run.2}"))

/-! ## The desired document -/

def deriveInstanceName (containerId : String) : Except StepError String := do
  let id ← uuid32 containerId "container_id"
  return "nyc-" ++ id

/-- Two lower-case hexadecimal digits. -/
def hexByte (value : Nat) : String :=
  ofList [Nat.digitChar (value / 16 % 16), Nat.digitChar (value % 16)]

/-- `deriveGuestHwaddr`: a fixed start and the four bytes of the address. -/
def deriveGuestHwaddr (ipv4Address : String) : Except StepError String := do
  let address ← validateIpv4 ipv4Address "guest_ipv4_address"
  let bytes := 0x02 :: 0x6e :: (address.toList.splitOn '.').map decimalValue
  return ":".intercalate (bytes.map hexByte)

/-- `deriveNicHostName`; `sha256Hex` is the digest of a text in hexadecimal. -/
def deriveNicHostName (sha256Hex : String → String) (instanceId : String) : Except StepError String := do
  let id ← uuid32 instanceId "instance_id"
  return "nyh" ++ ofList ((sha256Hex id).toList.take 12)

structure ContainerRuntimeLimits where
  processes : Nat
  networkIngressMbit : Nat
  networkEgressMbit : Nat
  diskReadMBps : Nat
  diskWriteMBps : Nat

/-- The fields of the container row the document is built from. -/
structure InstanceSpecContainer where
  id : String
  name : String
  serverId : String
  revision : Nat
  imageFingerprint : String
  cpus : List Nat
  memBytes : String
  nesting : Bool
  syscallIntercept : Bool
  rootPool : String
  rootSizeBytes : String
  routedIp : String

structure InstanceSpecServer where
  id : String
  name : String
  parentInterface : String

structure InstanceSpecAttachment where
  id : String
  volumeId : String
  incusName : String
  poolName : String
  containerPath : String
  readOnly : Bool

/-- `DesiredInstanceSpec`: a container without profiles. -/
structure DesiredInstanceSpec where
  name : String
  source : StringMap
  config : StringMap
  devices : DeviceMap

def buildGuestNicDevice (sha256Hex : String → String) (parentInterface hardwareId ipv4Address : String) :
    Except StepError StringMap := do
  let hwaddr ← deriveGuestHwaddr ipv4Address
  let hostName ← deriveNicHostName sha256Hex hardwareId
  return [("type", "nic"), ("nictype", "bridged"), ("parent", parentInterface), ("name", "eth0"),
    ("hwaddr", hwaddr), ("host_name", hostName), ("ipv4.address", ipv4Address),
    ("security.ipv4_filtering", "true"), ("security.mac_filtering", "true")]

def imageSource (imageFingerprint : String) : Except StepError StringMap :=
  if imageFingerprint.toList.length == 64 && imageFingerprint.toList.all isHexChar then
    .ok [("type", "image"), ("fingerprint", ofList (lower imageFingerprint.toList))]
  else specFailure .invalidImageFingerprint "image_fingerprint"

def isAttachmentTarget (path : String) : Bool :=
  path.toList.head? == some '/' && path != "/" && !path.toList.any isControlChar &&
    !((path.toList.splitOn '/').any fun segment => segment == "..".toList || segment == ".".toList)

def attachmentDevice (attachment : InstanceSpecAttachment) : Except StepError (String × StringMap) := do
  let attachmentId ← uuid32 attachment.id "attachment_id"
  let volumeId ← uuid32 attachment.volumeId "volume_id"
  if attachment.incusName != "nyv-" ++ volumeId then
    specFailure .invalidVolumeName ("volume_name_" ++ attachment.volumeId)
  else
    let volumePool ← validateName attachment.poolName "volume_pool"
    if !isAttachmentTarget attachment.containerPath then
      specFailure .invalidAttachmentPath ("attachment_" ++ attachmentId)
    else
      return ("nyd-" ++ attachmentId, [("type", "disk"), ("pool", volumePool), ("source", attachment.incusName),
          ("path", attachment.containerPath)] ++
        (if attachment.readOnly then [("readonly", "true")] else []))

def managedKey : String := "user.nyabase.managed"
def containerIdKey : String := "user.nyabase.container_id"
def serverIdKey : String := "user.nyabase.server_id"
def displayContainerNameKey : String := "user.nyabase.display.container"
def displayServerNameKey : String := "user.nyabase.display.server"

def buildDesiredInstanceSpec (sha256Hex : String → String) (container : InstanceSpecContainer)
    (server : InstanceSpecServer) (attachments : List InstanceSpecAttachment)
    (limits : ContainerRuntimeLimits) : Except StepError DesiredInstanceSpec := do
  let containerId ← uuid32 container.id "container_id"
  let serverId ← uuid32 server.id "server_id"
  if ofList (lower (container.serverId.toList.filter fun c => c != '-')) != serverId then
    specFailure .invalidInstanceSpec "container_server_mismatch"
  else
    let revision ← nonNegativeInteger container.revision "revision"
    let rootSizeBytes ← positiveInteger container.rootSizeBytes .invalidInstanceSpec "root_size_bytes"
    let memBytes ← positiveInteger container.memBytes .invalidInstanceSpec "mem_bytes"
    let rootPool ← validateName container.rootPool "root_pool"
    let parentInterface ← validateName server.parentInterface "parent_interface"
    let routedIp ← validateIpv4 container.routedIp "routed_ip"
    let cpus ← formatCpuSet container.cpus
    let processes ← nonNegativeInteger limits.processes "limits_processes"
    let diskRead ← nonNegativeInteger limits.diskReadMBps "disk_read"
    let diskWrite ← nonNegativeInteger limits.diskWriteMBps "disk_write"
    let nic ← buildGuestNicDevice sha256Hex parentInterface containerId routedIp
    let ingress ← nonNegativeInteger limits.networkIngressMbit "network_ingress"
    let egress ← nonNegativeInteger limits.networkEgressMbit "network_egress"
    let mounts ← attachments.mapM attachmentDevice
    let source ← imageSource container.imageFingerprint
    return {
      name := "nyc-" ++ containerId
      source
      config :=
        [("limits.cpu", cpus), ("limits.memory", memBytes), ("limits.processes", toString processes),
          ("security.privileged", "false"), ("security.idmap.isolated", "true")] ++
        guestIpv6DisableSysctls.map (fun key => (key, "1")) ++
        [("security.nesting", toString container.nesting),
          ("security.syscalls.intercept.mknod", toString container.syscallIntercept),
          ("security.syscalls.intercept.setxattr", toString container.syscallIntercept),
          (managedKey, "true"), (containerIdKey, containerId), (serverIdKey, serverId),
          ("user.nyabase.revision", toString revision), (displayContainerNameKey, container.name),
          (displayServerNameKey, server.name)]
      devices :=
        [("root", [("type", "disk"), ("path", "/"), ("pool", rootPool), ("size", rootSizeBytes),
              ("limits.read", s!"{diskRead}MB"), ("limits.write", s!"{diskWrite}MB")]),
          ("eth0", nic ++ [("limits.ingress", s!"{ingress}Mbit"), ("limits.egress", s!"{egress}Mbit")])] ++
        mounts }

/-- What a feature adds to the document. -/
structure InstanceSpecContribution where
  config : StringMap
  devices : DeviceMap

/-- Add entries one by one; a key that is already there is a collision. -/
def addEntries {α : Type} (what : String) (present : List (String × α)) :
    List (String × α) → Except StepError (List (String × α))
  | [] => .ok present
  | entry :: entries =>
    if (present.lookup entry.1).isSome then
      specFailure .invalidInstanceSpec (what ++ "_collision_" ++ entry.1)
    else addEntries what (present ++ [entry]) entries

def mergeInstanceSpecContributions (base : DesiredInstanceSpec) :
    List InstanceSpecContribution → Except StepError DesiredInstanceSpec
  | [] => .ok base
  | contribution :: contributions => do
      let config ← addEntries "config" base.config contribution.config
      let devices ← addEntries "device" base.devices contribution.devices
      mergeInstanceSpecContributions { base with config, devices } contributions

/-! ## The GPU contribution: `packages/backend/src/gpu/instance-spec.ts` -/

/-- A valid stored `gpu_state`. -/
structure GpuContainerState where
  nvidiaRuntime : Bool
  pciAddresses : List String
  deriving DecidableEq

/-- `toIncusPciAddress`: the last four characters of the domain. -/
def toIncusPciAddress (canonical : String) : String :=
  let domain := canonical.toList.takeWhile fun c => c != ':'
  let rest := canonical.toList.dropWhile fun c => c != ':'
  if domain.isEmpty || rest.isEmpty then canonical
  else ofList (domain.drop (domain.length - 4) ++ rest)

def gpuInstanceSpec : Option GpuContainerState → InstanceSpecContribution
  | none => { config := [], devices := [] }
  | some state =>
    if state.nvidiaRuntime || !state.pciAddresses.isEmpty then
      { config := [("nvidia.runtime", toString state.nvidiaRuntime)]
        devices := state.pciAddresses.zipIdx.map fun address =>
          (s!"gpu{address.2}", [("type", "gpu"), ("gputype", "physical"), ("pci", toIncusPciAddress address.1)]) }
    else { config := [], devices := [] }

/-! ## Comparing managed fields -/

structure ManagedInstanceDocument where
  config : StringMap
  devices : DeviceMap
  profiles : List String

def memoryUnits : List (String × Nat) :=
  [("b", 1), ("kb", 1000), ("kib", 1024), ("mb", 1000 ^ 2), ("mib", 1024 ^ 2), ("gb", 1000 ^ 3),
    ("gib", 1024 ^ 3), ("tb", 1000 ^ 4), ("tib", 1024 ^ 4)]

def trim (value : String) : List Char := trimBy isJsWhitespace value.toList

def parseMemoryBytes (value : String) : Option String :=
  let digits := (trim value).takeWhile isDigit
  let unit := ((trim value).dropWhile isDigit).dropWhile isJsWhitespace
  if digits.isEmpty then none
  else
    (if unit.isEmpty then some 1 else memoryUnits.lookup (ofList (lower unit))).map fun multiplier =>
      toString (decimalValue digits * multiplier)

/-- Drop leading zeros, but keep one digit. -/
def dropLeadingZeros : List Char → List Char
  | '0' :: c :: rest => dropLeadingZeros (c :: rest)
  | digits => digits

/-- `/^[0-9]+(?:\.[0-9]+)?$/`, without zeros that say nothing. -/
def canonicalDecimal (value : List Char) : Option (List Char) :=
  match value.splitOn '.' with
  | [whole] =>
    if !whole.isEmpty && whole.all isDigit then some (dropLeadingZeros whole) else none
  | [whole, fraction] =>
    if !whole.isEmpty && whole.all isDigit && !fraction.isEmpty && fraction.all isDigit then
      let kept := (fraction.reverse.dropWhile fun c => c == '0').reverse
      some (if kept.isEmpty then dropLeadingZeros whole else dropLeadingZeros whole ++ '.' :: kept)
    else none
  | _ => none

/-- One item of a CPU list: a number or a range of at most 4097. -/
def cpuToken (token : List Char) : Option (List Nat) :=
  let bounds := match token.splitOn '-' with
    | [start] => some (start, start)
    | [start, stop] => some (start, stop)
    | _ => none
  bounds.bind fun (start, stop) =>
    if !start.isEmpty && start.all isDigit && !stop.isEmpty && stop.all isDigit &&
        decimalValue start ≤ maxSafeInteger && decimalValue stop ≤ maxSafeInteger &&
        decimalValue start ≤ decimalValue stop && decimalValue stop - decimalValue start ≤ 4096 then
      some (List.range' (decimalValue start) (decimalValue stop + 1 - decimalValue start))
    else none

def cpuRunText (run : Nat × Nat) : String :=
  if run.1 == run.2 then toString run.1 else s!"{run.1}-{run.2}"

def canonicalCpu (value : String) : Option String :=
  let trimmed := lower (trim value)
  match canonicalDecimal trimmed with
  | some decimal => some (ofList decimal)
  | none =>
    if trimmed.getLast? == some '%' then
      (canonicalDecimal trimmed.dropLast).map fun percent => ofList (percent ++ ['%'])
    else
      let tokens := (trimmed.splitOn ',').filter fun token => !token.isEmpty
      if tokens.isEmpty then none
      else
        (tokens.mapM cpuToken).bind fun cpus =>
          match sortedCpus cpus.flatten with
          | [] => none
          | start :: rest => some (",".intercalate ((cpuRuns start start rest).map cpuRunText))

def normalizeManagedValue (key : String) (value : Option String) : Option String :=
  value.map fun text =>
    if key == "limits.memory" then (parseMemoryBytes text).getD (ofList (trim text))
    else if key == "limits.cpu" then (canonicalCpu text).getD (ofList (trim text))
    else text

/-- `key.startsWith(lead)`. -/
def startsWith (lead key : String) : Bool := lead.toList.isPrefixOf key.toList

/-- Config Incus maintains itself (`CORE_MANAGED_FIELD_OWNERSHIP`). -/
def unmanagedConfigLeads : List String := ["volatile.", "image."]

def isManagedConfigKey (key : String) : Bool := !unmanagedConfigLeads.any fun lead => startsWith lead key

/-- The keys of two maps, each once.  (The source sorts them; nothing depends on their order.) -/
def bothKeys {α β : Type} (left : List (String × α)) (right : List (String × β)) : List String :=
  (left.map Prod.fst ++ right.map Prod.fst).dedup

/-- The managed config keys whose values differ. -/
def compareConfig (actual desired : StringMap) : List String :=
  ((bothKeys actual desired).filter isManagedConfigKey).filter fun key =>
    normalizeManagedValue key (actual.lookup key) != normalizeManagedValue key (desired.lookup key)

def deviceMatches (actual desired : StringMap) : Bool :=
  (bothKeys actual desired).all fun key => actual.lookup key == desired.lookup key

/-- The devices that differ. -/
def compareDevices (actual desired : DeviceMap) : List String :=
  (bothKeys actual desired).filter fun name =>
    match actual.lookup name, desired.lookup name with
    | some left, some right => !deviceMatches left right
    | _, _ => true

inductive DocumentSide where
  | actual
  | desired
  deriving DecidableEq

def DocumentSide.text : DocumentSide → String
  | .actual => "actual"
  | .desired => "desired"

/-- What is wrong with the managed interface, if anything. -/
def validateEth0 (devices : DeviceMap) (side : DocumentSide) : Option IncusError :=
  let wrong (code : IncusFailureCode) (details : List (String × String)) : Option IncusError :=
    some { code, disposition := .managedFailure,
           details := ("source", side.text) :: ("device", "eth0") :: details }
  match devices.lookup "eth0" with
  | none => wrong .missingManagedNetworkAddress []
  | some eth0 =>
    if eth0.lookup "type" != some "nic" then wrong .missingManagedNetworkAddress []
    else if eth0.lookup "nictype" != some "bridged" then
      wrong .invalidManagedNetworkType [("nictype", (eth0.lookup "nictype").getD "")]
    else if side == .actual then none
    else if (eth0.lookup "parent").getD "" == "" then
      wrong .invalidManagedNetworkType [("key", "parent")]
    else if eth0.lookup "name" != some "eth0" then wrong .invalidManagedNetworkType [("key", "name")]
    else if (eth0.lookup "hwaddr").getD "" == "" then
      wrong .invalidManagedNetworkType [("key", "hwaddr")]
    else if !isIpv4 ((eth0.lookup "ipv4.address").getD "").toList then
      wrong .invalidManagedFilterIdentity [("key", "ipv4.address")]
    else if eth0.lookup "security.ipv4_filtering" != some "true" then
      wrong .invalidManagedFilterIdentity [("key", "security.ipv4_filtering")]
    else if eth0.lookup "security.mac_filtering" != some "true" then
      wrong .invalidManagedFilterIdentity [("key", "security.mac_filtering")]
    else none

/-- `ManagedFieldsDiff`: the names of what differs (the source keeps both values for the audit too). -/
structure ManagedFieldsDiff where
  config : List String
  devices : List String
  profiles : Bool

def ManagedFieldsDiff.empty (diff : ManagedFieldsDiff) : Bool :=
  diff.config.isEmpty && diff.devices.isEmpty && !diff.profiles

/-- The differences, or the failure of a document that cannot be compared. -/
def compareManagedFields (actual : ManagedInstanceDocument) (desired : DesiredInstanceSpec) :
    Except IncusError ManagedFieldsDiff :=
  match validateEth0 actual.devices .actual with
  | some failure => .error failure
  | none =>
    match validateEth0 desired.devices .desired with
    | some failure => .error failure
    | none =>
      .ok { config := compareConfig actual.config desired.config
            devices := compareDevices actual.devices desired.devices
            profiles := !actual.profiles.isEmpty }

/-- The document to write: config Incus owns is kept, everything else is as desired. -/
def applyManagedFields (actual : ManagedInstanceDocument) (desired : DesiredInstanceSpec) :
    ManagedInstanceDocument where
  config :=
    (actual.config.filter fun entry => !isManagedConfigKey entry.1) ++
      desired.config.filter fun entry => isManagedConfigKey entry.1
  devices := desired.devices
  profiles := []

/-- `gpuRequiresStop`: a running instance cannot change its GPU runtime or devices. -/
def gpuRequiresStop (diff : ManagedFieldsDiff) : Bool :=
  diff.config.any (startsWith "nvidia.") || diff.devices.any (startsWith "gpu")

/-- `observeRootQuotaPending(...).pending`. -/
def rootQuotaPending (config : StringMap) : Bool :=
  (config.lookup "volatile.root.apply_quota").elim false fun value => lower (trim value) == "true".toList

end Nyabase.Backend
