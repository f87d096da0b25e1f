import Nyabase.Agent.PolicyBody
import Nyabase.Lib.Result

/-!
# What an instance document may say: `packages/agent/src/policy.ts`

`checkInstanceDocument` and what it calls: profiles, config entries and devices.  A check answers `ALLOW`
or `deny(reason)`; here it is an `Except` whose error is the reason.
-/

namespace Nyabase.Agent

open Lib Common

/-- `ALLOW` or `deny(reason)`. -/
abbrev Check := Except String Unit

def allow : Check := .ok ()

def refuse (reason : String) : Check := .error reason

/-- Check one after another, up to the first that denies. -/
def checkAll {α : Type} (check : α → Check) : List α → Check
  | [] => allow
  | item :: items => check item >>= fun _ => checkAll check items

theorem checkAll_eq_ok {α : Type} {check : α → Check} {items : List α} :
    checkAll check items = .ok () ↔ ∀ item ∈ items, check item = .ok () := by
  induction items with
  | nil => simp [checkAll, allow]
  | cons item items ih =>
    rw [checkAll, bind_eq_ok, List.forall_mem_cons]
    constructor
    · rintro ⟨⟨⟩, hitem, hitems⟩
      exact ⟨hitem, ih.mp hitems⟩
    · rintro ⟨hitem, hitems⟩
      exact ⟨(), hitem, ih.mpr hitems⟩

/-! ## Config entries -/

def startsWith (lead text : String) : Bool := lead.toList.isPrefixOf text.toList

/-- `key.startsWith('volatile.')`: keys that belong to Incus. -/
def isVolatile : String → Bool := startsWith "volatile."

/-- `\d+`. -/
def isDigits (text : List Char) : Bool := !text.isEmpty && text.all isDigit

/-- `\d+-\d+`. -/
def isDigitRange (text : List Char) : Bool :=
  match text.splitOn '-' with
  | [low, high] => isDigits low && isDigits high
  | _ => false

/-- `CPUSET_PATTERN`: a list of ranges, or at least two numbers or ranges. -/
def isCpuset (value : String) : Bool :=
  let items := value.toList.splitOn ','
  items.all isDigitRange || (decide (2 ≤ items.length) && items.all fun item => isDigits item || isDigitRange item)

/-- `/^[0-9]+(?:[KMGT]i?B)?$/`. -/
def isSizeLimit (value : String) : Bool :=
  let suffix := value.toList.dropWhile isDigit
  !(value.toList.takeWhile isDigit).isEmpty &&
    (suffix.isEmpty || ["KB", "MB", "GB", "TB", "KiB", "MiB", "GiB", "TiB"].any fun unit =>
      unit.toList == suffix)

/-- `BOOLEAN_VALUES`. -/
def booleanValues : List String := ["true", "false"]

/-- May this entry be written? -/
def checkConfigEntry (key value : String) : Check :=
  if isVolatile key then allow
  else if startsWith "user.nyabase." key || startsWith "image." key then allow
  else match key with
    | "limits.cpu" => ensure (isCpuset value) "limits.cpu must be an explicit CPU set"
    | "limits.memory" | "limits.processes" => ensure (isSizeLimit value) s!"{key} is malformed"
    | "security.privileged" => ensure (value == "false") "privileged containers are refused"
    | "security.idmap.isolated" => ensure (value == "true") "security.idmap.isolated must be true"
    | "security.nesting" | "security.syscalls.intercept.mknod"
    | "security.syscalls.intercept.setxattr" | "nvidia.runtime" =>
      ensure (booleanValues.contains value) s!"{key} must be a boolean"
    | _ =>
      if guestIpv6DisableSysctls.contains key then ensure (value == "1") s!"{key} must be 1"
      else refuse s!"config {key} is not allowed"

structure DocumentCheckOptions where
  /-- `POST` and `PUT` carry the whole document; `PATCH` carries a fragment. -/
  full : Bool
  /-- The config Incus holds now (updates only). -/
  current : Option (List (String × String)) := none

/-- The key is echoed with exactly the value Incus holds now. -/
def unchanged (current : Option (List (String × String))) (key value : String) : Bool :=
  match current with
  | none => false
  | some entries => entries.lookup key == some value

/-- One turn of the loop of `checkInstanceConfig`. -/
def checkConfigField (current : Option (List (String × String))) (entry : String × Json) : Check :=
  let key := entry.1
  match entry.2.str? with
  | none => refuse s!"config {key} must be a string"
  | some value => if unchanged current key value then allow else checkConfigEntry key value

/-- `config[key]` when it is a string. -/
def stringField (record : List (String × Json)) (key : String) : Option String :=
  (record.lookup key).bind Json.str?

def checkInstanceConfig (config : List (String × Json)) (options : DocumentCheckOptions) : Check := do
  checkAll (checkConfigField options.current) config
  -- whole documents must state these whatever the instance holds now
  if options.full then
    ensure (stringField config "security.idmap.isolated" == some "true") "security.idmap.isolated must be true"
    ensure ((config.lookup "security.privileged").isNone ||
      stringField config "security.privileged" == some "false") "privileged containers are refused"

/-! ## Devices -/

def diskKeys : List String :=
  ["type", "path", "pool", "source", "size", "readonly", "limits.read", "limits.write"]

def nicKeys : List String :=
  ["type", "nictype", "parent", "name", "hwaddr", "host_name", "ipv4.address",
    "security.ipv4_filtering", "security.mac_filtering", "security.port_isolation",
    "limits.ingress", "limits.egress"]

def gpuKeys : List String := ["type", "gputype", "pci"]

def onlyKeys (record : List (String × String)) (allowed : List String) : Bool :=
  record.all fun entry => allowed.contains entry.1

/-- `device[key] ?? ''`. -/
def deviceText (device : List (String × String)) (key : String) : String :=
  (device.lookup key).getD ""

/-- The path an attachment may be mounted at, apart from the forbidden roots. -/
def isAttachmentPath (path : String) : Bool :=
  ['/'].isPrefixOf path.toList && path != "/" && !(path.toList.any fun c => c.toNat ≤ 0x1f || c.toNat == 0x7f) &&
    !((path.toList.splitOn '/').any fun segment => segment == ['.'] || segment == ['.', '.'])

def checkDisk (name : String) (device : List (String × String)) : Check := do
  ensure (onlyKeys device diskKeys) s!"disk {name} has refused keys"
  ensure (deviceText device "pool" != "") s!"disk {name} must live in a storage pool"
  if name == "root" then
    ensure (device.lookup "path" == some "/" && (device.lookup "source").isNone) "root disk is malformed"
  else
    ensure (managedAttachmentDevice name) s!"disk {name} is not a nyabase attachment"
    ensure (managedVolumeName (deviceText device "source")) s!"disk {name} must mount a nyabase volume"
    ensure (isAttachmentPath (deviceText device "path")) s!"disk {name} path is malformed"
    ensure (!isForbiddenContainerMountPath (deviceText device "path"))
      s!"disk {name} must not be mounted under /proc, /sys or /dev"

def checkNic (name : String) (device : List (String × String)) : Check := do
  ensure (name == "eth0") "the only NIC is eth0"
  ensure (onlyKeys device nicKeys) "eth0 has refused keys"
  ensure (device.lookup "nictype" == some "bridged" && deviceText device "parent" != "") "eth0 must be a bridged NIC"
  ensure ([none, some "true", some "false"].contains (device.lookup "security.port_isolation"))
    "eth0 security.port_isolation must be true or false"
  ensure (managedNicHostName (deviceText device "host_name")) "eth0 host_name must carry the IPv6 guard prefix"
  ensure (device.lookup "security.ipv4_filtering" == some "true" &&
    device.lookup "security.mac_filtering" == some "true") "eth0 must filter IPv4 and MAC spoofing"
  ensure (deviceText device "ipv4.address" != "") "eth0 needs its IPv4 filter identity"

/-- `/^gpu[0-9]+$/`. -/
def isGpuName (name : String) : Bool :=
  "gpu".toList.isPrefixOf name.toList && isDigits (name.toList.drop 3)

/-- `/^[0-9a-f:.]{7,16}$/i`. -/
def isPciAddress (pci : String) : Bool :=
  decide (7 ≤ pci.toList.length) && decide (pci.toList.length ≤ 16) &&
    pci.toList.all fun c => isLowerHex c.toLower || c == ':' || c == '.'

def checkGpu (name : String) (device : List (String × String)) : Check := do
  ensure (isGpuName name) s!"gpu device {name} is misnamed"
  ensure (onlyKeys device gpuKeys) s!"gpu device {name} has refused keys"
  ensure (device.lookup "gputype" == some "physical" && isPciAddress (deviceText device "pci"))
    s!"gpu device {name} must be a physical card by PCI address"

/-- The part of `checkDevice` that reads the device's entries. -/
def checkDeviceEntries (name : String) (entries : List (String × String)) : Check :=
  match entries.lookup "type" with
  | some "disk" => checkDisk name entries
  | some "nic" => checkNic name entries
  | some "gpu" => checkGpu name entries
  | kind =>
    let kind := kind.getD "none"
    refuse s!"device {name} of type {kind} is not allowed"

def checkDevice (name : String) (device : Json) : Check :=
  match device.fields? with
  | none => refuse s!"device {name} must be an object"
  | some fields =>
    let entries := Json.strings fields
    if entries.length ≠ fields.length then refuse s!"device {name} values must be strings"
    else checkDeviceEntries name entries

/-! ## Documents -/

/-- `Array.isArray(body.profiles) && body.profiles.length === 0`. -/
def noProfiles (profiles : Option Json) : Bool :=
  match profiles with
  | some value => isEmptyArray value
  | none => false

/-- A part of a document is checked when it is there, and has to be there in a whole document. -/
def checkPart (body : List (String × Json)) (options : DocumentCheckOptions) (field : String)
    (check : Option Json → Check) : Check :=
  if (body.lookup field).isSome || options.full then check (body.lookup field) else allow

def checkProfiles (profiles : Option Json) : Check :=
  ensure (noProfiles profiles) "instances must not use profiles"

def checkConfigPart (options : DocumentCheckOptions) (config : Option Json) : Check :=
  match config.bind Json.fields? with
  | none => refuse "instance config must be an object"
  | some config => checkInstanceConfig config options

def checkDevicesPart (devices : Option Json) : Check :=
  match devices.bind Json.fields? with
  | none => refuse "instance devices must be an object"
  | some devices => checkAll (fun device => checkDevice device.1 device.2) devices

def checkInstanceDocument (body : List (String × Json)) (options : DocumentCheckOptions) : Check := do
  checkPart body options "profiles" checkProfiles
  ensure (!((body.lookup "ephemeral").bind Json.bool? == some true)) "ephemeral instances are refused"
  ensure (!((body.lookup "stateful").bind Json.bool? == some true)) "stateful instances are refused"
  checkPart body options "config" (checkConfigPart options)
  checkPart body options "devices" checkDevicesPart

end Nyabase.Agent
