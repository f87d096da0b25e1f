import Nyabase.Agent.Policy

/-!
# The local Incus, as far as instance documents go

The agent forwards what its policy allows; this module says what Incus then does to its instances.  A
request whose body Incus reads as one of the documents below has its documented effect: `POST` creates or
renames, `PUT` replaces the document, `PATCH` merges it.  Anything else that is not a read (another key in
the body, another path) may leave any instances behind, so no guarantee can rest on it.

Between requests Incus maintains config keys of its own; `maintained` remembers the last value it gave
each of them.
-/

namespace Nyabase.Agent

open Lib AssocList

variable {β : Type}

structure Instance where
  profiles : List String
  config : List (String × String)
  devices : List (String × List (String × String))
  status : String
  /-- What Incus itself wrote into the config. -/
  maintained : List (String × String)
  deriving DecidableEq

/-- The instances of a host by name. -/
abbrev Instances := List (String × Instance)

namespace Instance

/-- `GET /1.0/instances/{name}`. -/
def document (inst : Instance) : List (String × Json) :=
  [("profiles", .arr (inst.profiles.map Json.str)), ("config", Json.ofStrings inst.config),
    ("devices", .obj (inst.devices.map fun device => (device.1, Json.ofStrings device.2))),
    ("status", .str inst.status)]

end Instance

def instancePath (name : String) : String := s!"/1.0/instances/{encodeURIComponent name}"

def Instances.read (instances : Instances) : CurrentDocumentReader := fun path =>
  (instances.find? fun entry => instancePath entry.1 == path).map fun entry => entry.2.document

/-! ## Reading a body -/

/-- How Incus decodes a JSON body. -/
structure Decoder (platform : Platform β) where
  decode : β → Option Json
  /-- What the agent serializes, Incus reads back. -/
  decode_stringify : ∀ value, decode (platform.stringify value) = some value

/-- `map[string]string`. -/
def readStrings (value : Json) : Option (List (String × String)) :=
  match value.fields? with
  | none => none
  | some fields =>
    if (Json.strings fields).length = fields.length then some (Json.strings fields) else none

/-- `map[string]map[string]string`. -/
def readDevices (value : Json) : Option (List (String × List (String × String))) :=
  match value.fields? with
  | none => none
  | some fields => fields.mapM fun device => (readStrings device.2).map fun entries => (device.1, entries)

/-- `[]string`. -/
def readProfiles (value : Json) : Option (List String) :=
  match value.items? with
  | none => none
  | some items => items.mapM Json.str?

/-- A field that may be left out. -/
def readOptional {α : Type} (read : Json → Option α) (value : Option Json) : Option (Option α) :=
  match value with
  | none => some none
  | some value => (read value).map some

/-- The part of an instance document a body carries. -/
structure DocumentBody where
  profiles : Option (List String)
  config : Option (List (String × String))
  devices : Option (List (String × List (String × String)))

/-- Does the struct of these fields take every key as it is written?  Go matches field names without
regard to case and merges duplicates, so only exact, distinct keys have an obvious meaning. -/
def exactFields (names : List String) (fields : List (String × Json)) : Bool :=
  (fields.all fun entry => names.contains entry.1) && decide (fields.map Prod.fst).Nodup

def readDocument (fields : List (String × Json)) : Option DocumentBody := do
  let profiles ← readOptional readProfiles (fields.lookup "profiles")
  let config ← readOptional readStrings (fields.lookup "config")
  let devices ← readOptional readDevices (fields.lookup "devices")
  return { profiles, config, devices }

/-- `InstancePut`, apart from `restore`. -/
def instancePutNames : List String :=
  ["architecture", "config", "description", "devices", "ephemeral", "profiles", "stateful"]

/-- `InstancesPost` for a new instance of an image. -/
def instancesPostNames : List String :=
  ["name", "type", "profiles", "source", "config", "devices", "start"]

/-! ## What a request does -/

/-- What Incus decides on a request. -/
structure Outcome where
  /-- Incus may refuse any request. -/
  accepted : Bool
  /-- Does `PATCH` merge the keys of a device it has, or replace the device? -/
  mergesDeviceKeys : Bool
  /-- The status a power action or a create leads to. -/
  status : String
  /-- What a request without a known effect leaves behind. -/
  unknown : Instances

/-- `PATCH` on the devices of an instance. -/
def mergeDevices (mergesKeys : Bool) (new old : List (String × List (String × String))) :
    List (String × List (String × String)) :=
  override (new.map fun device =>
      (device.1, if mergesKeys then override device.2 ((old.lookup device.1).getD [])
        else device.2))
    old

/-- `PUT`: the whole document. -/
def Instance.replace (inst : Instance) (body : DocumentBody) : Instance :=
  { inst with
    profiles := body.profiles.getD []
    config := body.config.getD []
    devices := body.devices.getD [] }

/-- `PATCH`: the keys the body has. -/
def Instance.merge (inst : Instance) (mergesKeys : Bool) (body : DocumentBody) : Instance :=
  { inst with
    profiles := body.profiles.getD inst.profiles
    config := override (body.config.getD []) inst.config
    devices := mergeDevices mergesKeys (body.devices.getD []) inst.devices }

/-- A new instance; one that names no profiles gets the default one. -/
def DocumentBody.create (body : DocumentBody) (status : String) : Instance :=
  { profiles := body.profiles.getD ["default"]
    config := body.config.getD []
    devices := body.devices.getD []
    status
    maintained := [] }

namespace Instances

/-- Put an instance in the place of the one of that name. -/
def set (instances : Instances) (name : String) (inst : Instance) : Instances :=
  override [(name, inst)] instances

/-- `POST /1.0/instances`; the result is `none` when the body has no known meaning. -/
def create (instances : Instances) (outcome : Outcome) (fields : List (String × Json)) : Option Instances := do
  let document ← readDocument fields
  let name ← stringField fields "name"
  let source ← (fields.lookup "source").bind Json.fields?
  if exactFields instancesPostNames fields && stringField source "type" == some "image" then
    if (instances.lookup name).isSome then return instances
    else return instances.set name (document.create outcome.status)
  else none

/-- `PUT` and `PATCH /1.0/instances/{name}`. -/
def update (instances : Instances) (name : String)
    (write : Instance → DocumentBody → Instance) (fields : List (String × Json)) : Option Instances := do
  let document ← readDocument fields
  if exactFields instancePutNames fields then
    match instances.lookup name with
    | none => return instances
    | some inst => return instances.set name (write inst document)
  else none

/-- `POST /1.0/instances/{name}`: a rename when the body has a name only. -/
def rename (instances : Instances) (name : String) (fields : List (String × Json)) : Option Instances := do
  let newName ← stringField fields "name"
  if exactFields ["name"] fields then
    match instances.lookup name, instances.lookup newName with
    | some inst, none => return Instances.set (erase name instances) newName inst
    | _, _ => return instances
  else none

/-- `PUT /1.0/instances/{name}/state`. -/
def setStatus (instances : Instances) (name status : String) : Instances :=
  match instances.lookup name with
  | none => instances
  | some inst => instances.set name { inst with status }

end Instances

/-- The effect on the instances of a request that is not a read, by path below `1.0`; `none` when the
model knows of none. -/
def Instances.write (instances : Instances) (outcome : Outcome) (method : Method)
    (segments : List String) (fields : Option (List (String × Json))) : Option Instances :=
  match segments with
  | "storage-pools" :: _ | "images" :: _ => some instances
  | ["instances"] =>
    match method with
    | .post => fields.bind (instances.create outcome)
    | _ => none
  | ["instances", name] =>
    match method with
    | .delete => some (erase name instances)
    | .post => fields.bind (instances.rename name)
    | .put => fields.bind (instances.update name Instance.replace)
    | .patch =>
      fields.bind (instances.update name fun inst =>
        inst.merge outcome.mergesDeviceKeys)
    | .get => some instances
  | ["instances", name, "state"] =>
    match method with
    | .put => some (instances.setStatus name outcome.status)
    | _ => none
  | ["instances", _, "exec"] | ["instances", _, "files"] => some instances
  | _ => none

section

variable {platform : Platform β} (decoder : Decoder platform)

/-- What Incus does with a request. -/
def Instances.handle (instances : Instances) (outcome : Outcome) (method : Method) (path : String)
    (body : Option β) : Instances :=
  if !outcome.accepted || method = .get then instances
  else
    match parseIncusPath path with
    | some { segments := "1.0" :: segments, .. } =>
      (instances.write outcome method segments ((body.bind decoder.decode).bind Json.fields?)).getD outcome.unknown
    | _ => outcome.unknown

/-! ## Runs -/

/-- Config keys Incus never writes on its own. -/
def policyKeys : List String := ["security.idmap.isolated", "security.privileged"]

inductive HostEvent (β : Type) where
  /-- A request is submitted to the agent, which forwards it if the policy allows it.  The document the
  policy reads and the write go together. -/
  | request (submitted : PolicyRequest β) (knows : String → Bool) (outcome : Outcome)
  /-- Incus writes a key it maintains. -/
  | incusSets (name key value : String)
  /-- Incus drops a key. -/
  | incusDrops (name key : String)
  /-- An instance starts, stops or crashes. -/
  | changesStatus (name status : String)
  /-- Somebody else creates, changes or deletes an instance that is not managed. -/
  | foreign (name : String) (inst : Option Instance)

def HostEvent.step (instances : Instances) : HostEvent β → Option Instances
  | .request submitted knows outcome =>
    match checkIncusHttp platform submitted { readCurrent := instances.read, knows } with
    | .denied _ _ => some instances
    | .allowed body _ =>
      some (instances.handle decoder outcome submitted.method submitted.path body)
  | .incusSets name key value =>
    match instances.lookup name with
    | some inst =>
      if policyKeys.contains key then none
      else some (instances.set name
        { inst with
          config := override [(key, value)] inst.config
          maintained := override [(key, value)] inst.maintained })
    | none => none
  | .incusDrops name key =>
    match instances.lookup name with
    | some inst =>
      if policyKeys.contains key then none
      else some (instances.set name { inst with config := erase key inst.config })
    | none => none
  | .changesStatus name status => some (instances.setStatus name status)
  | .foreign name inst =>
    if isManagedInstance (some name) then none
    else match inst with
      | some inst => some (instances.set name inst)
      | none => some (erase name instances)

end

end Nyabase.Agent
