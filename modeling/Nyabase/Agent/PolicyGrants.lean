import Nyabase.Agent.DocumentChecks
import Nyabase.Agent.Incus

/-!
# What an allowed request is

Inversion lemmas of the policy.  `InstanceGrant` lists the writes on instances the policy allows, with the
body each forwards and what was checked about it; `ForwardedBody` says of every request where the
forwarded body comes from.
-/

namespace Nyabase.Agent

open Lib Common PolicyVerdict

variable {β : Type} {platform : Platform β} {request : PolicyRequest β}

/-! ## Verdicts -/

section

variable {verdict : PolicyVerdict β} {body : Option β} {up : Bool}

@[simp] theorem deny_ne_allowed {reason : String} : (deny reason : PolicyVerdict β) ≠ .allowed body up := by
  simp [deny]

@[simp] theorem pass_eq_allowed : (pass : PolicyVerdict β) = .allowed body up ↔ none = body ∧ false = up := by
  simp [PolicyVerdict.pass]

@[simp] theorem forward_eq_allowed {fields : List (String × Json)} {nicUp : Bool} :
    forward platform fields nicUp = .allowed body up ↔ some (serialize platform fields) = body ∧ nicUp = up := by
  simp [forward]

@[simp] theorem denyIf_eq_allowed {problem : Option String} :
    denyIf problem verdict = .allowed body up ↔ problem = none ∧ verdict = .allowed body up := by
  cases problem <;> simp [denyIf]

@[simp] theorem after_eq_allowed {check : Check} :
    after check verdict = .allowed body up ↔ check = .ok () ∧ verdict = .allowed body up := by
  cases check <;> simp [after]

@[simp] theorem ite_deny_eq_allowed {condition : Prop} [Decidable condition] {reason : String} :
    (if condition then deny reason else verdict) = .allowed body up ↔ ¬ condition ∧ verdict = .allowed body up := by
  split <;> simp [*]

@[simp] theorem else_deny_eq_allowed {condition : Prop} [Decidable condition] {reason : String} :
    (if condition then verdict else deny reason) = .allowed body up ↔ condition ∧ verdict = .allowed body up := by
  split <;> simp [*]

theorem checkJson_eq_allowed {raw : Option β} {schema : FieldSchema} {label : String}
    {check : List (String × Json) → PolicyVerdict β} : checkJson platform raw schema label check = .allowed body up ↔
      ∃ fields, jsonBody platform raw = some fields ∧
        fieldsProblem platform fields schema label = none ∧ check fields = .allowed body up := by
  unfold checkJson
  cases jsonBody platform raw with
  | none | some fields => simp

end

/-! ## Writes on instances -/

/-- The writes on instances the policy allows: the path below `instances`, the body that is forwarded and
whether the guards are verified first. -/
inductive InstanceGrant (platform : Platform β) (request : PolicyRequest β)
    (readCurrent : CurrentDocumentReader) : List String → Option β → Bool → Prop where
  | create {fields source : List (String × Json)} (method : request.method = .post)
      (parsed : jsonBody platform request.body = some fields)
      (shape : fieldsProblem platform fields instanceCreateFields "instance" = none)
      (managed : isManagedInstance (stringField fields "name") = true)
      (hasSource : fields.lookup "source" = some (.obj source))
      (image : stringField source "type" = some "image")
      (plain : setsVolatile fields = false)
      (passes : checkInstanceDocument fields { full := true } = .ok ()) :
      InstanceGrant platform request readCurrent [] (some (serialize platform fields))
        ((fields.lookup "start").bind Json.bool? == some true)
  | delete {name : String} (method : request.method = .delete) (managed : isManagedInstance (some name) = true) :
      InstanceGrant platform request readCurrent [name] none false
  | rename {name : String} {fields : List (String × Json)} (method : request.method = .post)
      (managed : isManagedInstance (some name) = true)
      (parsed : jsonBody platform request.body = some fields)
      (shape : fieldsProblem platform fields instanceRenameFields "instance rename" = none)
      (renamed : isManagedInstance (stringField fields "name") = true) :
      InstanceGrant platform request readCurrent [name] (some (serialize platform fields)) false
  | update {name : String} {fields current : List (String × Json)}
      (method : request.method = .put ∨ request.method = .patch)
      (managed : isManagedInstance (some name) = true)
      (parsed : jsonBody platform request.body = some fields)
      (shape : fieldsProblem platform fields instanceUpdateFields "instance" = none)
      (found : readCurrent (instancePath name) = some current)
      (passes : checkInstanceDocument fields
        { full := request.method = .put, current := some (stringMap (current.lookup "config")) } = .ok ()) :
      InstanceGrant platform request readCurrent [name]
        (some (serialize platform (currentVolatileBody fields (stringMap (current.lookup "config")))))
        (bringsNicUp fields current)
  | power {name action : String} {fields : List (String × Json)} (method : request.method = .put)
      (managed : isManagedInstance (some name) = true)
      (parsed : jsonBody platform request.body = some fields)
      (known : powerActions.contains action = true)
      (asked : (stringField fields "action").getD "undefined" = action) :
      InstanceGrant platform request readCurrent [name, "state"] (some (serialize platform fields))
        (nicUpActions.contains action)
  | exec {name : String} {fields : List (String × Json)} (method : request.method = .post)
      (managed : isManagedInstance (some name) = true)
      (parsed : jsonBody platform request.body = some fields) :
      InstanceGrant platform request readCurrent [name, "exec"] (some (serialize platform fields)) false
  | deleteFile {name : String} (method : request.method = .delete) (managed : isManagedInstance (some name) = true) :
      InstanceGrant platform request readCurrent [name, "files"] none false
  | writeFile {name : String} (method : request.method = .post) (managed : isManagedInstance (some name) = true) :
      InstanceGrant platform request readCurrent [name, "files"] request.body false

section

variable {readCurrent : CurrentDocumentReader} {body : Option β} {up : Bool}

theorem checkInstanceCreate_allowed (hmethod : request.method = .post)
    (h : checkInstanceCreate platform request.body = .allowed body up) :
    InstanceGrant platform request readCurrent [] body up := by
  unfold checkInstanceCreate at h
  split at h
  · simp at h
  rename_i fields hparsed
  rw [denyIf_eq_allowed, ite_deny_eq_allowed, ite_deny_eq_allowed] at h
  obtain ⟨hshape, hname, -, h⟩ := h
  split at h
  · simp at h
  rename_i source hsource
  rw [ite_deny_eq_allowed, denyIf_eq_allowed, ite_deny_eq_allowed, after_eq_allowed, forward_eq_allowed] at h
  obtain ⟨himage, -, hplain, hpasses, rfl, rfl⟩ := h
  exact .create hmethod hparsed hshape (by simpa using hname) (eq_obj_of_fields? hsource)
    (by simpa using himage) (by simpa using hplain) hpasses

variable {name : String}

theorem checkInstanceUpdate_allowed (hmethod : request.method = .put ∨ request.method = .patch)
    (hmanaged : isManagedInstance (some name) = true)
    (h : checkInstanceUpdate platform request (instancePath name) readCurrent = .allowed body up) :
    InstanceGrant platform request readCurrent [name] body up := by
  unfold checkInstanceUpdate at h
  split at h
  · simp at h
  rename_i fields hparsed
  rw [denyIf_eq_allowed] at h
  obtain ⟨hshape, h⟩ := h
  split at h
  · simp at h
  rename_i current hfound
  rw [after_eq_allowed, withCurrentVolatile, forward_eq_allowed] at h
  obtain ⟨hpasses, rfl, rfl⟩ := h
  exact .update hmethod hmanaged hparsed hshape hfound hpasses

section

variable (hread : request.method ≠ .get)

include hread

theorem checkInstance_allowed (hmanaged : isManagedInstance (some name) = true)
    (h : checkInstance platform request name readCurrent = .allowed body up) :
    InstanceGrant platform request readCurrent [name] body up := by
  revert h
  fun_cases checkInstance platform request name readCurrent with
  | case1 => contradiction
  | case2 hmethod =>
    rw [pass_eq_allowed]
    rintro ⟨rfl, rfl⟩
    exact .delete hmethod hmanaged
  | case3 hmethod =>
    intro h
    obtain ⟨fields, hparsed, hshape, hcheck⟩ := checkJson_eq_allowed.mp h
    rw [else_deny_eq_allowed, forward_eq_allowed] at hcheck
    obtain ⟨hrenamed, rfl, rfl⟩ := hcheck
    exact .rename hmethod hmanaged hparsed hshape hrenamed
  | case4 =>
    apply checkInstanceUpdate_allowed _ hmanaged
    cases hmethod : request.method with
    | put => exact .inl rfl
    | patch => exact .inr rfl
    | get | delete | post => contradiction

theorem checkInstanceLeaf_allowed {leaf : String}
    (hmanaged : isManagedInstance (some name) = true) (h : checkInstanceLeaf platform request leaf = .allowed body up) :
    InstanceGrant platform request readCurrent [name, leaf] body up := by
  revert h
  fun_cases checkInstanceLeaf platform request leaf with
  | case1 | case6 => contradiction
  | case2 hmethod =>
    intro h
    obtain ⟨fields, hparsed, -, hcheck⟩ := checkJson_eq_allowed.mp h
    rw [else_deny_eq_allowed, forward_eq_allowed] at hcheck
    obtain ⟨hknown, rfl, rfl⟩ := hcheck
    exact .power hmethod hmanaged hparsed hknown rfl
  | case5 hmethod =>
    intro h
    obtain ⟨fields, hparsed, -, hcheck⟩ := checkJson_eq_allowed.mp h
    rw [ite_deny_eq_allowed, forward_eq_allowed] at hcheck
    obtain ⟨-, rfl, rfl⟩ := hcheck
    exact .exec (not_not.mp hmethod) hmanaged hparsed
  | case7 hmethod =>
    rw [pass_eq_allowed]
    rintro ⟨rfl, rfl⟩
    exact .deleteFile hmethod hmanaged
  | case8 hmethod =>
    rintro ⟨⟩
    exact .writeFile hmethod hmanaged
  | case3 | case4 | case9 | case10 => simp

/-- Every write on instances that is allowed is one of the grants. -/
theorem checkInstances_allowed {rest : List String}
    (h : checkInstances platform request rest readCurrent = .allowed body up) :
    InstanceGrant platform request readCurrent rest body up := by
  revert h
  fun_cases checkInstances platform request rest readCurrent with
  | case1 => contradiction
  | case2 hmethod => exact checkInstanceCreate_allowed hmethod
  | case5 name hmanaged => exact checkInstance_allowed hread (by simpa using hmanaged)
  | case6 name hmanaged leaf => exact checkInstanceLeaf_allowed hread (by simpa using hmanaged)
  | case3 | case4 | case7 => simp

end

end

/-! ## Forwarded bodies -/

/-- The document that an update of these segments is read from. -/
def documentPath : List String → Option String
  | ["1.0", "instances", name] => some (instancePath name)
  | ["1.0", "storage-pools", pool, "volumes", "custom", name] =>
    some s!"/1.0/storage-pools/{encodeURIComponent pool}/volumes/custom/{encodeURIComponent name}"
  | _ => none

/-- Where a forwarded body comes from: on a `POST` or a change of power state, the checked object serialized again;
on an update, the same with the `volatile.*` entries of its config replaced by those Incus holds for what is updated;
or the bytes of a file write as they came. -/
inductive ForwardedBody (platform : Platform β) (request : PolicyRequest β)
    (readCurrent : CurrentDocumentReader) : β → Prop where
  | checked {fields : List (String × Json)} (kind : request.method = .post ∨ request.method = .put ∧
      ∃ name query, parseIncusPath request.path = some ⟨["1.0", "instances", name, "state"], query⟩)
      (parsed : jsonBody platform request.body = some fields) :
      ForwardedBody platform request readCurrent (serialize platform fields)
  | updated {fields current : List (String × Json)} {segments : List String} {query : List (List UInt8 × List UInt8)}
      (method : request.method = .put ∨ request.method = .patch)
      (path : parseIncusPath request.path = some ⟨segments, query⟩)
      (parsed : jsonBody platform request.body = some fields)
      (found : (documentPath segments).bind readCurrent = some current) :
      ForwardedBody platform request readCurrent
        (serialize platform (currentVolatileBody fields (stringMap (current.lookup "config"))))
  | fileWrite {name : String} {query : List (List UInt8 × List UInt8)} {raw : β} (method : request.method = .post)
      (path : parseIncusPath request.path = some ⟨["1.0", "instances", name, "files"], query⟩)
      (body : request.body = some raw) : ForwardedBody platform request readCurrent raw

section

variable {context : PolicyContext} {readCurrent : CurrentDocumentReader} {forwarded : β} {up : Bool}

variable {rest : List String}

variable {query : List (List UInt8 × List UInt8)}

theorem InstanceGrant.forwardedBody
    (hpath : parseIncusPath request.path = some ⟨"1.0" :: "instances" :: rest, query⟩)
    (h : InstanceGrant platform request readCurrent rest (some forwarded) up) :
    ForwardedBody platform request readCurrent forwarded := by
  generalize hbody : some forwarded = body at h
  cases h with
  | create method parsed | rename method managed parsed | exec method managed parsed =>
    cases hbody
    exact .checked (.inl method) parsed
  | power method managed parsed =>
    cases hbody
    exact .checked (.inr ⟨method, _, _, hpath⟩) parsed
  | delete | deleteFile => cases hbody
  | update method managed parsed shape found =>
    cases hbody
    exact .updated method hpath parsed found
  | writeFile method => exact .fileWrite method hpath hbody.symm

theorem checkJson_forwardedBody {schema : FieldSchema} {label : String} {check : List (String × Json) → PolicyVerdict β}
    (hmethod : request.method = .post)
    (hcheck : ∀ fields, check fields = .allowed (some forwarded) up → forwarded = serialize platform fields)
    (h : checkJson platform request.body schema label check = .allowed (some forwarded) up) :
    ForwardedBody platform request readCurrent forwarded := by
  obtain ⟨fields, hparsed, -, hallowed⟩ := checkJson_eq_allowed.mp h
  rw [hcheck fields hallowed]
  exact .checked (.inl hmethod) hparsed

theorem checkVolumeCreate_allowed {raw body : Option β} (h : checkVolumeCreate platform raw = .allowed body up) :
    ∃ fields, jsonBody platform raw = some fields ∧ managedVolumeName ((stringField fields "name").getD "") = true ∧
      some (serialize platform fields) = body := by
  unfold checkVolumeCreate at h
  split at h
  · simp at h
  · rename_i fields hparsed
    -- the name is the first of four reasons to refuse, then comes the config
    simp only [denyIf_eq_allowed, ite_deny_eq_allowed, after_eq_allowed, forward_eq_allowed] at h
    obtain ⟨-, hmanaged, -, -, -, -, hbody, -⟩ := h
    exact ⟨fields, hparsed, by simpa using hmanaged, hbody⟩

theorem checkVolumeUpdate_forwardedBody {volumePath : String} {segments : List String}
    (hmethod : request.method = .put ∨ request.method = .patch)
    (hpath : parseIncusPath request.path = some ⟨segments, query⟩) (hvolume : documentPath segments = some volumePath)
    (h : checkVolumeUpdate platform request volumePath readCurrent = .allowed (some forwarded) up) :
    ForwardedBody platform request readCurrent forwarded := by
  unfold checkVolumeUpdate at h
  split at h
  · simp at h
  · rename_i fields hparsed
    rw [denyIf_eq_allowed] at h
    obtain ⟨-, h⟩ := h
    split at h
    · simp at h
    rename_i current hfound
    rw [ite_deny_eq_allowed, after_eq_allowed, withCurrentVolatile, forward_eq_allowed] at h
    obtain rfl := Option.some.inj h.2.2.1
    exact .updated hmethod hpath hparsed (by rw [hvolume]; exact hfound)

theorem checkStoragePools_forwardedBody
    (hpath : parseIncusPath request.path = some ⟨"1.0" :: "storage-pools" :: rest, query⟩)
    (h : checkStoragePools platform request rest readCurrent = .allowed (some forwarded) up) :
    ForwardedBody platform request readCurrent forwarded := by
  unfold checkStoragePools at h
  split at h
  · simp at h
  rw [ite_deny_eq_allowed] at h
  obtain ⟨hvolumes, h⟩ := h
  split at h
  · obtain ⟨hmethod, h⟩ := ite_deny_eq_allowed.mp h
    obtain ⟨fields, hparsed, -, hbody⟩ := checkVolumeCreate_allowed h
    obtain rfl := Option.some.inj hbody
    exact .checked (.inl (not_not.mp hmethod)) hparsed
  next hnamed =>
  rw [ite_deny_eq_allowed] at h
  obtain ⟨hcustom, h⟩ := h
  -- an update names the pool and the volume
  have hvolume : documentPath ("1.0" :: "storage-pools" :: rest) =
      let pool := encodeURIComponent (rest[0]?.getD "")
      let name := encodeURIComponent (rest[3]?.getD "")
      some s!"/1.0/storage-pools/{pool}/volumes/custom/{name}" := by
    rcases rest with _ | ⟨pool, _ | ⟨kind, _ | ⟨type, _ | ⟨name, _ | ⟨below, rest⟩⟩⟩⟩⟩ <;> simp_all [documentPath]
  split at h
  · simp at h
  · next hmethod => exact checkVolumeUpdate_forwardedBody (.inl hmethod) hpath hvolume h
  · next hmethod => exact checkVolumeUpdate_forwardedBody (.inr hmethod) hpath hvolume h
  · simp at h

theorem checkImages_forwardedBody (h : checkImages platform request rest = .allowed (some forwarded) up) :
    ForwardedBody platform request readCurrent forwarded := by
  revert h
  fun_cases checkImages platform request rest with
  | case2 _ hmethod =>
    refine checkJson_forwardedBody hmethod fun fields hcheck => ?_
    rw [else_deny_eq_allowed, forward_eq_allowed] at hcheck
    exact (Option.some.inj hcheck.2.1).symm
  | case7 _ hmethod =>
    refine checkJson_forwardedBody (not_not.mp hmethod) fun fields hcheck => ?_
    unfold checkImagePull at hcheck
    split at hcheck
    · simp at hcheck
    rw [ite_deny_eq_allowed, denyIf_eq_allowed, forward_eq_allowed] at hcheck
    exact (Option.some.inj hcheck.2.2.1).symm
  | _ => simp

/-- A read forwards no body. -/
theorem checkInstances_get (hmethod : request.method = .get) :
    checkInstances platform request rest readCurrent ≠ .allowed (some forwarded) up := by
  unfold checkInstances checkInstance checkInstanceLeaf
  simp only [hmethod]
  repeat' split
  all_goals simp_all

/-- What is allowed is a read, or what the checks of instances, volumes or images allow. -/
theorem checkIncusHttp_allowed {body : Option β} (h : checkIncusHttp platform request context = .allowed body up) :
    (request.method = .get ∧ none = body) ∨ ∃ rest query,
      (parseIncusPath request.path = some ⟨"1.0" :: "instances" :: rest, query⟩ ∧
        checkInstances platform request rest context.readCurrent = .allowed body up) ∨
      (parseIncusPath request.path = some ⟨"1.0" :: "storage-pools" :: rest, query⟩ ∧
        checkStoragePools platform request rest context.readCurrent = .allowed body up) ∨
      (parseIncusPath request.path = some ⟨"1.0" :: "images" :: rest, query⟩ ∧
        checkImages platform request rest = .allowed body up) := by
  revert h
  fun_cases checkIncusHttp platform request context with
  | case2 | case4 | case6 => simp_all
  | case8 parsed hparsed rest hsegments =>
    exact fun h => .inr ⟨rest, parsed.query, .inl ⟨hsegments ▸ hparsed, h⟩⟩
  | case9 parsed hparsed rest hsegments =>
    exact fun h => .inr ⟨rest, parsed.query, .inr (.inl ⟨hsegments ▸ hparsed, h⟩)⟩
  | case10 parsed hparsed rest hsegments =>
    exact fun h => .inr ⟨rest, parsed.query, .inr (.inr ⟨hsegments ▸ hparsed, h⟩)⟩
  | case11 =>
    unfold checkOperations
    repeat' split
    all_goals simp_all
  | case1 | case3 | case5 | case7 | case12 | case13 => simp

theorem checkIncusHttp_forwardedBody (h : checkIncusHttp platform request context = .allowed (some forwarded) up) :
    ForwardedBody platform request context.readCurrent forwarded := by
  rcases checkIncusHttp_allowed h with ⟨-, hnone⟩ | ⟨rest, query, ⟨hpath, h⟩ | ⟨hpath, h⟩ | ⟨-, h⟩⟩
  · cases hnone
  · by_cases hmethod : request.method = .get
    · exact absurd h (checkInstances_get hmethod)
    · exact (checkInstances_allowed hmethod h).forwardedBody hpath
  · exact checkStoragePools_forwardedBody hpath h
  · exact checkImages_forwardedBody h

end

end Nyabase.Agent
