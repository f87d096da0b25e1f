import Nyabase.Common.Protocol
import Nyabase.Lib.Json

/-!
# Request bodies the agent forwards: `packages/agent/src/policy-body.ts`

Every JSON body is parsed, each struct level may use only the exact keys of a schema, and what is
forwarded is serialized again from the checked object.

Bodies are opaque values of a type `β`; what JavaScript does with them is a `Platform`.
-/

namespace Nyabase.Agent

open Lib Common

/-- The host environment of the policy. -/
structure Platform (β : Type) where
  /-- `body.byteLength === 0`. -/
  isEmpty : β → Bool
  /-- `JSON.parse(body.toString('utf8'))`, `none` when it throws. -/
  parse : β → Option Json
  /-- `Buffer.from(JSON.stringify(value))`. -/
  stringify : Json → β
  /-- `JSON.stringify` of a string, as text. -/
  quote : String → String
  /-- `new URL(value)`, `none` when it throws. -/
  url : String → Option Url
  /-- `JSON.parse` keeps only the last of two entries with one key. -/
  parse_nodup : ∀ body fields, parse body = some (.obj fields) → (fields.map Prod.fst).Nodup

/-! ## Value checks -/

abbrev ValueCheck := Json → Bool

def isString : ValueCheck := fun value => value.str?.isSome

def isBoolean : ValueCheck := fun value => value.bool?.isSome

/-- `isObject` and `isRecord`. -/
def isObject : ValueCheck := fun value => value.fields?.isSome

def isArray : ValueCheck := fun value => value.items?.isSome

def isEmptyArray : ValueCheck := fun value => (value.items?.map List.isEmpty).getD false

/-- `Number.MAX_SAFE_INTEGER`. -/
def maxSafeInteger : Nat := 2 ^ 53 - 1

def isCount : ValueCheck
  | .num value => value.den == 1 && decide (0 ≤ value) && decide (value ≤ maxSafeInteger)
  | _ => false

def isCommand : ValueCheck := fun value =>
  match value.items? with
  | some items => !items.isEmpty && items.all fun part => part.str?.isSome
  | none => false

/-! ## Schemas -/

abbrev FieldSchema := List (String × ValueCheck)

/-- `POST /1.0/instances`. -/
def instanceCreateFields : FieldSchema :=
  [("name", isString), ("type", isString), ("profiles", isArray), ("source", isObject),
    ("config", isObject), ("devices", isObject), ("start", isBoolean)]

/-- `InstancesPost.source`. -/
def instanceSourceFields : FieldSchema :=
  [("type", isString), ("fingerprint", isString), ("alias", isString), ("server", isString),
    ("protocol", isString), ("project", isString)]

/-- `PUT` and `PATCH /1.0/instances/{name}`. -/
def instanceUpdateFields : FieldSchema :=
  [("architecture", isString), ("config", isObject), ("description", isString),
    ("devices", isObject), ("ephemeral", isBoolean), ("profiles", isArray), ("stateful", isBoolean)]

/-- `POST /1.0/instances/{name}`: rename only. -/
def instanceRenameFields : FieldSchema := [("name", isString)]

/-- `PUT /1.0/instances/{name}/state`. -/
def instanceStateFields : FieldSchema := [("action", isString), ("force", isBoolean)]

/-- `POST /1.0/instances/{name}/exec`. -/
def instanceExecFields : FieldSchema :=
  [("command", isCommand), ("record-output", isBoolean), ("interactive", isBoolean),
    ("wait-for-websocket", isBoolean), ("width", isCount), ("height", isCount), ("user", isCount),
    ("group", isCount)]

/-- `POST /1.0/storage-pools/{pool}/volumes`. -/
def volumeCreateFields : FieldSchema :=
  [("name", isString), ("type", isString), ("content_type", isString), ("config", isObject)]

/-- `PUT` and `PATCH` of a custom volume. -/
def volumeUpdateFields : FieldSchema := [("config", isObject), ("description", isString)]

/-- `POST /1.0/images`: a pull from a remote image server. -/
def imagePullFields : FieldSchema := [("aliases", isEmptyArray), ("source", isObject)]

def imageSourceFields : FieldSchema :=
  [("type", isString), ("alias", isString), ("fingerprint", isString), ("protocol", isString),
    ("server", isString), ("image_type", isString)]

/-- `POST /1.0/images/aliases`. -/
def imageAliasFields : FieldSchema := [("name", isString), ("target", isString), ("type", isString)]

/-! ## Parsing and checking a body -/

section

variable {β : Type} (platform : Platform β)

/-- Why one entry does not match `schema`. -/
def fieldProblem (schema : FieldSchema) (label key : String) (value : Json) : Option String :=
  match schema.lookup key with
  | none =>
    let quoted := platform.quote key
    some s!"{label} field {quoted} is not allowed"
  | some check => if check value then none else some s!"{label} field {key} is malformed"

/-- Why `record` does not match `schema`, or `none` when every key is listed and holds a value of the
listed shape. -/
def fieldsProblem (record : List (String × Json)) (schema : FieldSchema) (label : String) : Option String :=
  record.findSome? fun entry => fieldProblem platform schema label entry.1 entry.2

/-- A JSON object body, or `none` when it is absent, malformed or not an object. -/
def jsonBody (body : Option β) : Option (List (String × Json)) :=
  match body with
  | none => none
  | some raw => if platform.isEmpty raw then none else (platform.parse raw).bind Json.fields?

/-- The body actually forwarded: the checked object, serialized again. -/
def serialize (body : List (String × Json)) : β := platform.stringify (.obj body)

variable {platform}

theorem jsonBody_nodup {body : Option β} {fields : List (String × Json)}
    (h : jsonBody platform body = some fields) : (fields.map Prod.fst).Nodup := by
  cases body with
  | none => cases h
  | some raw =>
    simp only [jsonBody] at h
    split at h
    · cases h
    · obtain ⟨value, hparse, hfields⟩ := Option.bind_eq_some_iff.mp h
      rw [Json.fields?_eq_some.mp hfields] at hparse
      exact platform.parse_nodup raw fields hparse

end

end Nyabase.Agent
