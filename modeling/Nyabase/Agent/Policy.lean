import Nyabase.Agent.IncusPath
import Nyabase.Agent.InstanceDocument

/-!
# What the Backend may ask the local Incus to do: `packages/agent/src/policy.ts`

`checkIncusHttp` answers for one request.  Reading the current document of an instance or volume is a
function of its path here; when it is read is up to the caller.
-/

namespace Nyabase.Agent

open Lib Common

/-- `AgentIncusHttpMethod`. -/
inductive Method where
  | get | post | put | patch | delete
  deriving DecidableEq

variable {β : Type}

inductive PolicyVerdict (β : Type) where
  /-- `body` is the only body the agent forwards; `bringsUpGuestNic` makes it verify the guards first. -/
  | allowed (body : Option β) (bringsUpGuestNic : Bool)
  | denied (reason : String) (notFound : Bool)

structure PolicyRequest (β : Type) where
  method : Method
  path : String
  body : Option β

/-- Reads the current Incus document of a path. -/
abbrev CurrentDocumentReader := String → Option (List (String × Json))

structure PolicyContext where
  readCurrent : CurrentDocumentReader
  /-- `operations.knows`. -/
  knows : String → Bool

namespace PolicyVerdict

def deny (reason : String) : PolicyVerdict β := .denied reason false

/-- `ALLOW`: nothing is forwarded but the request line. -/
def pass : PolicyVerdict β := .allowed none false

/-- `forward`: the object is serialized again. -/
def forward (platform : Platform β) (body : List (String × Json)) (bringsUpGuestNic : Bool) : PolicyVerdict β :=
  .allowed (some (serialize platform body)) bringsUpGuestNic

/-- Deny for the reason a check gives, go on when it allows. -/
def after (check : Check) (next : PolicyVerdict β) : PolicyVerdict β :=
  match check with
  | .error reason => deny reason
  | .ok () => next

/-- Deny for a problem, go on without one. -/
def denyIf (problem : Option String) (next : PolicyVerdict β) : PolicyVerdict β :=
  match problem with
  | some reason => deny reason
  | none => next

/-- The body an allowed request forwards. -/
def body? : PolicyVerdict β → Option β
  | .allowed body _ => body
  | .denied _ _ => none

theorem exists_allowed_of_body? {verdict : PolicyVerdict β} {body : β} (h : verdict.body? = some body) :
    ∃ up, verdict = .allowed (some body) up := by
  cases verdict with
  | allowed forwarded up => exact ⟨up, by rw [← h]; rfl⟩
  | denied reason notFound => cases h

end PolicyVerdict

open PolicyVerdict

/-- `PROBE_INSTANCE_PATTERN`. -/
def probeInstanceName : String → Bool := taggedHex "nyabase-preflight-" 32

/-- `IMAGE_FINGERPRINT_PATTERN`. -/
def imageFingerprint : String → Bool := taggedHex "" 64

/-- `OPERATION_ID_PATTERN`: `/^[0-9a-f-]{36}$/`. -/
def operationId (text : String) : Bool :=
  text.toList.length == 36 && text.toList.all fun c => isLowerHex c || c == '-'

/-- `POWER_ACTIONS`. -/
def powerActions : List String := ["start", "stop", "restart", "freeze", "unfreeze"]

/-- `NIC_UP_ACTIONS`: power actions after which guest NICs pass traffic again. -/
def nicUpActions : List String := ["start", "restart", "unfreeze"]

def isManagedInstance (name : Option String) : Bool :=
  match name with
  | none => false
  | some name => managedInstanceName name || probeInstanceName name

/-- `stringMap`: the string entries of an object, nothing for other values. -/
def stringMap (value : Option Json) : List (String × String) :=
  match value.bind Json.fields? with
  | none => []
  | some fields => Json.strings fields

/-- `===` on JSON values: arrays and objects of two documents are never the same one. -/
def sameValue : Json → Json → Bool
  | .null, .null => true
  | .bool left, .bool right => left == right
  | .num left, .num right => left == right
  | .str left, .str right => left == right
  | _, _ => false

/-- `value ?? fallback`. -/
def orDefault (value : Option Json) (fallback : Json) : Json :=
  match value with
  | none => fallback
  | some .null => fallback
  | some value => value

/-! ## Shared parts -/

section

variable (platform : Platform β)

/-- Parse a JSON body, hold it to `schema`, then let `check` decide on the parsed object. -/
def checkJson (raw : Option β) (schema : FieldSchema) (label : String)
    (check : List (String × Json) → PolicyVerdict β) : PolicyVerdict β :=
  match jsonBody platform raw with
  | none => deny s!"{label} needs a JSON body"
  | some body => denyIf (fieldsProblem platform body schema label) (check body)

/-- An entry of an updated config: `volatile.*` is replaced with what Incus holds, or dropped. -/
def currentVolatile (current : List (String × String)) (entry : String × Json) : Option (String × Json) :=
  if isVolatile entry.1 then (current.lookup entry.1).map fun value => (entry.1, .str value)
  else some entry

/-- `{ ...body, config }`. -/
def setConfig (body : List (String × Json)) (config : List (String × Json)) : List (String × Json) :=
  body.map fun entry => (entry.1, if entry.1 == "config" then .obj config else entry.2)

/-- The object an update forwards. -/
def currentVolatileBody (body : List (String × Json)) (current : List (String × String)) : List (String × Json) :=
  match (body.lookup "config").bind Json.fields? with
  | none => body
  | some config => setConfig body (config.filterMap (currentVolatile current))

def withCurrentVolatile (body : List (String × Json)) (current : List (String × String))
    (bringsUpGuestNic : Bool) : PolicyVerdict β :=
  forward platform (currentVolatileBody body current) bringsUpGuestNic

/-- Why the source of an image cannot be pulled from. -/
def imageServerProblem (source : List (String × Json)) : Option String :=
  match source.lookup "server" with
  | none => none
  | some server =>
    match server.str? with
    | none => some "image source server must be a string"
    | some server =>
      if stringField source "protocol" == some "simplestreams" then
        imageSourceServerProblem platform.url server
      else some "remote images must use the simplestreams protocol"

/-- `fieldsProblem(...) ?? imageServerProblem(...)`. -/
def sourceProblem (source : List (String × Json)) (schema : FieldSchema) (label : String) : Option String :=
  (fieldsProblem platform source schema label).or (imageServerProblem platform source)

/-- Does the config of a new object name `volatile.*` keys? -/
def setsVolatile (body : List (String × Json)) : Bool :=
  match (body.lookup "config").bind Json.fields? with
  | none => false
  | some config => config.any fun entry => isVolatile entry.1

end

/-! ## Instances -/

/-- `sameStringMap(left, right)`. -/
def sameStringMap (left : List (String × Json)) (right : Option Json) : Bool :=
  match right.bind Json.fields? with
  | none => false
  | some right =>
    left.length == right.length && left.all fun entry =>
      match right.lookup entry.1 with
      | none => false
      | some value => sameValue value entry.2

/-- `String(current.status).toLowerCase() === 'stopped'`. -/
def isStopped (current : List (String × Json)) : Bool :=
  match stringField current "status" with
  | none => false
  | some status => lower status.toList == "stopped".toList

/-- Is this a NIC that differs from the instance's own? -/
def changesNic (before : List (String × Json)) (device : String × Json) : Bool :=
  match device.2.fields? with
  | none => false
  | some fields =>
    stringField fields "type" == some "nic" && !sameStringMap fields (before.lookup device.1)

/-- Does an instance update plug a NIC into a live guest? -/
def bringsNicUp (body current : List (String × Json)) : Bool :=
  match (body.lookup "devices").bind Json.fields? with
  | none => false
  | some devices =>
    !isStopped current && devices.any (changesNic (((current.lookup "devices").bind Json.fields?).getD []))

section

variable (platform : Platform β)

def checkInstanceCreate (raw : Option β) : PolicyVerdict β :=
  match jsonBody platform raw with
  | none => deny "instance create needs a JSON body"
  | some body =>
    denyIf (fieldsProblem platform body instanceCreateFields "instance") <|
    if !isManagedInstance (stringField body "name") then
      deny "only nyabase instances may be created"
    else if (body.lookup "type").isSome && stringField body "type" != some "container" then
      deny "only containers may be created"
    else match (body.lookup "source").bind Json.fields? with
      | none => deny "instances may only be created from an image"
      | some source =>
        if stringField source "type" != some "image" then
          deny "instances may only be created from an image"
        else
          denyIf (sourceProblem platform source instanceSourceFields "instance source") <|
          if setsVolatile body then deny "volatile keys may not be set on create"
          else after (checkInstanceDocument body { full := true })
            (forward platform body ((body.lookup "start").bind Json.bool? == some true))

/-- `PUT` and `PATCH` of an instance. -/
def checkInstanceUpdate (request : PolicyRequest β) (instancePath : String)
    (readCurrent : CurrentDocumentReader) : PolicyVerdict β :=
  match jsonBody platform request.body with
  | none => deny "instance update needs a JSON body"
  | some body =>
    denyIf (fieldsProblem platform body instanceUpdateFields "instance") <|
    match readCurrent instancePath with
    | none => deny "instance to update does not exist"
    | some current =>
      let currentConfig := stringMap (current.lookup "config")
      after (checkInstanceDocument body
          { full := request.method = .put, current := some currentConfig }) <|
        withCurrentVolatile platform body currentConfig (bringsNicUp body current)

/-- `/1.0/instances/{name}`. -/
def checkInstance (request : PolicyRequest β) (name : String) (readCurrent : CurrentDocumentReader) : PolicyVerdict β :=
  match request.method with
  | .get | .delete => pass
  | .post =>
    checkJson platform request.body instanceRenameFields "instance rename" fun body =>
      if isManagedInstance (stringField body "name") then forward platform body false
      else deny "instances may only be renamed to another nyabase name"
  | _ =>
    let encoded := encodeURIComponent name
    checkInstanceUpdate platform request s!"/1.0/instances/{encoded}" readCurrent

/-- `/1.0/instances/{name}/{leaf}`. -/
def checkInstanceLeaf (request : PolicyRequest β) (leaf : String) : PolicyVerdict β :=
  match leaf with
  | "state" =>
    match request.method with
    | .get => pass
    | .put =>
      checkJson platform request.body instanceStateFields "instance state" fun body =>
        -- a missing action reads as the text `undefined`, which is no power action either
        let action := (stringField body "action").getD "undefined"
        if powerActions.contains action then forward platform body (nicUpActions.contains action)
        else deny "unknown power action"
    | _ => deny "instance state only supports read and change"
  | "exec" =>
    if request.method ≠ .post then deny "exec only supports POST"
    else checkJson platform request.body instanceExecFields "exec" fun body =>
      if (body.lookup "command").isNone then deny "exec needs a command"
      else forward platform body false
  | "files" =>
    match request.method with
    | .get | .delete => pass
    -- file content is opaque bytes for Incus, not a document it decodes
    | .post => .allowed request.body false
    | _ => deny "instance files support read, write and delete"
  | leaf => deny s!"instance {leaf} is not reachable through the agent"

def checkInstances (request : PolicyRequest β) (rest : List String)
    (readCurrent : CurrentDocumentReader) : PolicyVerdict β :=
  match rest with
  | [] =>
    match request.method with
    | .get => pass
    | .post => checkInstanceCreate platform request.body
    | _ => deny "instance collection only supports list and create"
  | name :: below =>
    if !isManagedInstance (some name) then deny "only nyabase instances are reachable"
    else match below with
      | [] => checkInstance platform request name readCurrent
      | [leaf] => checkInstanceLeaf platform request leaf
      | _ => deny "instance path is too deep"

end

/-! ## Storage volumes -/

/-- One turn of the loop of `checkVolumeConfig`. -/
def checkVolumeField (current : Option (List (String × String))) (entry : String × Json) : Check :=
  let key := entry.1
  match entry.2.str? with
  | none => refuse s!"volume config {key} must be a string"
  | some value =>
    if isVolatile key then allow
    else if key == "security.shifted" then ensure (value == "true") "volumes must stay shifted"
    else if unchanged current key value then allow
    else if key == "size" || startsWith "block." key || startsWith "initial." key then allow
    else if startsWith "user.nyabase." key then allow
    else refuse s!"volume config {key} is not allowed"

def checkVolumeConfig (config : Json) (current : Option (List (String × String))) : Check :=
  match config.fields? with
  | none => refuse "volume config must be an object"
  | some fields => checkAll (checkVolumeField current) fields

section

variable (platform : Platform β)

def checkVolumeCreate (raw : Option β) : PolicyVerdict β :=
  match jsonBody platform raw with
  | none => deny "volume create needs a JSON body"
  | some body =>
    denyIf (fieldsProblem platform body volumeCreateFields "volume") <|
    if !managedVolumeName ((stringField body "name").getD "") then
      deny "only nyabase volumes may be created"
    else if !sameValue (orDefault (body.lookup "type") (.str "custom")) (.str "custom") then
      deny "only custom volumes may be created"
    else if !sameValue (orDefault (body.lookup "content_type") (.str "filesystem")) (.str "filesystem") then
      deny "only filesystem volumes may be created"
    else if setsVolatile body then deny "volatile keys may not be set on create"
    else after (checkVolumeConfig (orDefault (body.lookup "config") (.obj [])) none) (forward platform body false)

/-- `PUT` and `PATCH` of a custom volume. -/
def checkVolumeUpdate (request : PolicyRequest β) (volumePath : String)
    (readCurrent : CurrentDocumentReader) : PolicyVerdict β :=
  match jsonBody platform request.body with
  | none => deny "volume update needs a JSON body"
  | some body =>
    denyIf (fieldsProblem platform body volumeUpdateFields "volume") <|
    match readCurrent volumePath with
    | none => deny "volume to update does not exist"
    | some current =>
      -- PUT replaces the whole config: leaving security.shifted out would drop it
      if request.method = .put && ((body.lookup "config").bind Json.fields?).bind
          (fun config => stringField config "security.shifted") != some "true" then
        deny "volumes must stay shifted"
      else
        let currentConfig := stringMap (current.lookup "config")
        after (checkVolumeConfig (orDefault (body.lookup "config") (.obj [])) (some currentConfig)) <|
          withCurrentVolatile platform body currentConfig false

def checkStoragePools (request : PolicyRequest β) (rest : List String)
    (readCurrent : CurrentDocumentReader) : PolicyVerdict β :=
  if request.method = .get then
    if rest.length ≤ 5 then pass else deny "storage path is too deep"
  else
    let pool := rest[0]?.getD ""
    let type := rest[2]?
    let name := rest[3]?
    if pool == "" || rest[1]? != some "volumes" || decide (4 < rest.length) then
      deny "storage pools are read-only"
    else if type.isNone || (type == some "custom" && name.isNone) then
      if request.method ≠ .post then deny "volume collection only supports create"
      else checkVolumeCreate platform request.body
    else if type != some "custom" || !managedVolumeName (name.getD "") then
      deny "only nyabase custom volumes are writable"
    else match request.method with
      | .delete => pass
      | .put | .patch =>
        let pool := encodeURIComponent pool
        let name := encodeURIComponent (name.getD "")
        checkVolumeUpdate platform request s!"/1.0/storage-pools/{pool}/volumes/custom/{name}" readCurrent
      | _ => deny "volumes support update and delete"

/-! ## Images and operations -/

def checkImagePull (body : List (String × Json)) : PolicyVerdict β :=
  match (body.lookup "source").bind Json.fields? with
  | none => deny "images may only be pulled from a remote image server"
  | some source =>
    if stringField source "type" != some "image" || (stringField source "server").isNone then
      deny "images may only be pulled from a remote image server"
    else denyIf (sourceProblem platform source imageSourceFields "image source") (forward platform body false)

def checkImages (request : PolicyRequest β) (rest : List String) : PolicyVerdict β :=
  if request.method = .get then pass
  else match rest with
    | ["aliases"] =>
      if request.method = .post then
        checkJson platform request.body imageAliasFields "image alias" fun body =>
          if (stringField body "name").isSome && (stringField body "target").isSome then
            forward platform body false
          else deny "an image alias needs a name and a target"
      else deny "image aliases support create and delete"
    | "aliases" :: below =>
      if below.length = 1 && request.method = .delete then pass
      else deny "image aliases support create and delete"
    | [] =>
      if request.method ≠ .post then deny "image collection only supports remote pulls"
      else checkJson platform request.body imagePullFields "image" (checkImagePull platform)
    | [fingerprint] =>
      if !imageFingerprint fingerprint then deny "image path is malformed"
      else if request.method = .delete then pass
      else deny "images support read and delete"
    | _ => deny "image path is malformed"

end

def checkOperations (method : Method) (rest : List String) (knows : String → Bool) : PolicyVerdict β :=
  match rest with
  | [] => deny "operations support read and wait"
  | id :: below =>
    if method ≠ .get then deny "operations support read and wait"
    else if !operationId id || !(below == [] || below == ["wait"]) then
      deny "operation path is malformed"
    else if knows id then pass
    else .denied "operation was not started through the agent" true

/-! ## The whole policy -/

def checkIncusHttp (platform : Platform β) (request : PolicyRequest β) (context : PolicyContext) : PolicyVerdict β :=
  match parseIncusPath request.path with
  | none => deny "path is malformed or uses a refused query parameter"
  | some parsed =>
    match parsed.segments with
    | "1.0" :: rest =>
      match rest with
      | [] =>
        if request.method = .get then pass else deny "server configuration is read-only"
      | "resources" :: rest =>
        if request.method = .get && rest.isEmpty then pass else deny "resources are read-only"
      | "networks" :: rest =>
        if request.method = .get && decide (rest.length ≤ 2) &&
            (decide (rest.length < 2) || rest[1]? == some "state") then pass
        else deny "networks are read-only"
      | "instances" :: rest => checkInstances platform request rest context.readCurrent
      | "storage-pools" :: rest => checkStoragePools platform request rest context.readCurrent
      | "images" :: rest => checkImages platform request rest
      | "operations" :: rest => checkOperations request.method rest context.knows
      | collection :: _ => deny s!"/1.0/{collection} is not reachable through the agent"
    | _ => deny "only the 1.0 API is reachable"

end Nyabase.Agent
