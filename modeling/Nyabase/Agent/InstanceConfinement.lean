import Nyabase.Agent.DocumentWrites
import Nyabase.Lib.Transition

/-!
# Managed instances stay confined

Only requests the policy allows reach Incus.  Whatever the requests, in whatever order, a managed instance
has no profiles, its own id map, no privileges, only devices that pass `checkDevice`, and no config entry
outside the allow-list but those Incus maintains, as Incus wrote them.
-/

namespace Nyabase.Agent

open Lib Common PolicyVerdict Option AssocList HostEvent

variable {β : Type}

structure Instance.Confined (inst : Instance) : Prop where
  profiles : inst.profiles = []
  isolated : inst.config.lookup "security.idmap.isolated" = some "true"
  privileged : inst.config.lookup "security.privileged" = none ∨ inst.config.lookup "security.privileged" = some "false"
  devices : ∀ device ∈ inst.devices, checkDevice device.1 (Json.ofStrings device.2) = .ok ()
  config : ∀ entry ∈ inst.config, AllowListed entry.1 entry.2 ∨ inst.maintained.lookup entry.1 = some entry.2

/-- Every managed instance of the host is confined. -/
def Instances.Confined (instances : Instances) : Prop :=
  ∀ name inst, isManagedInstance (some name) = true → instances.lookup name = some inst → inst.Confined

/-! ## Documents -/

namespace Instance

variable {inst : Instance} {options : DocumentCheckOptions} {document : DocumentBody}

section

variable (h : inst.Confined)

include h

omit h in
/-- An instance that has its fields from a whole document, whatever it gets for the profiles of another. -/
theorem confined_of_document {written : Instance} {profiles : List String}
    (hdocument : DocumentWritten options document) (hfull : options.full = true)
    (hprofiles : written.profiles = document.profiles.getD profiles)
    (hconfig : written.config = document.config.getD []) (hdevices : written.devices = document.devices.getD [])
    (hentry : ∀ entry ∈ written.config, unchanged options.current entry.1 entry.2 = true →
      AllowListed entry.1 entry.2 ∨ written.maintained.lookup entry.1 = some entry.2) : written.Confined := by
  obtain ⟨hstated, hstatedConfig⟩ := hdocument.whole hfull
  obtain ⟨config, hconfigs⟩ := isSome_iff_exists.mp hstatedConfig
  have hwritten : ConfigWritten options written.config := by
    rw [hconfig, hconfigs]
    exact hdocument.config config hconfigs
  refine ⟨?_, hwritten.isolated hfull, hwritten.privileged hfull, ?_, ?_⟩
  · obtain ⟨profiles, hnone⟩ := isSome_iff_exists.mp hstated
    rw [hprofiles, hnone]
    exact hdocument.profiles profiles hnone
  · intro device hdevice
    rw [checkDevice_ofStrings]
    rw [hdevices] at hdevice
    cases hstated : document.devices with
    | none => simp [hstated] at hdevice
    | some devices =>
      rw [hstated] at hdevice
      exact hdocument.devices devices hstated device hdevice
  · intro entry hmem
    exact (hwritten.entry entry hmem).elim (hentry entry hmem) .inl

theorem Confined.replace (hfull : options.full = true)
    (hcurrent : options.current = some inst.config) (hdocument : DocumentWritten options document) :
    (inst.replace document).Confined := by
  refine confined_of_document hdocument hfull rfl rfl rfl fun entry _ hsame => ?_
  rw [hcurrent, unchanged_eq_true] at hsame
  exact h.config entry (mem_of_lookup hsame)

omit h in
/-- Devices laid over passing devices pass, whichever way Incus merges them. -/
theorem mergeDevices_pass {mergesKeys : Bool} {new old : List (String × List (String × String))}
    (hnew : ∀ device ∈ new, checkDeviceEntries device.1 device.2 = .ok ())
    (hold : ∀ device ∈ old, checkDeviceEntries device.1 device.2 = .ok ()) :
    ∀ device ∈ mergeDevices mergesKeys new old, checkDeviceEntries device.1 device.2 = .ok () := by
  intro device hdevice
  obtain hmem | ⟨hmem, -⟩ := mem_override hdevice
  · obtain ⟨stated, hstated, rfl⟩ := List.mem_map.mp hmem
    have hpass := hnew stated hstated
    cases mergesKeys with
    | false => exact hpass
    | true =>
      cases hbelow : old.lookup stated.1 with
      | none =>
        have hsame : override stated.2 [] = stated.2 := by simp [override]
        rwa [getD_none, hsame]
      | some below =>
        have hpass' := hold _ (mem_of_lookup hbelow)
        obtain ⟨htype, hcheck⟩ := checkDeviceEntries_eq_ok.mp hpass
        obtain ⟨-, hcheck'⟩ := checkDeviceEntries_eq_ok.mp hpass'
        apply checkDeviceEntries_eq_ok.mpr
        exact ⟨lookup_override_of_some htype, DeviceKind.check_override hcheck hcheck'⟩
  · exact hold device hmem

theorem Confined.merge {mergesKeys : Bool} (hfragment : options.full = false)
    (hcurrent : options.current = some inst.config) (hdocument : DocumentWritten options document) :
    (inst.merge mergesKeys document).Confined := by
  -- an absent config merges like an empty one
  have hwritten : ConfigWritten options (document.config.getD []) := by
    cases hconfig : document.config with
    | none => exact ⟨by simp, by simp [hfragment], by simp [hfragment]⟩
    | some config => exact hdocument.config config hconfig
  refine ⟨?_, ?_, ?_, ?_, ?_⟩
  · show document.profiles.getD inst.profiles = []
    cases hprofiles : document.profiles with
    | none => exact h.profiles
    | some profiles => exact hdocument.profiles profiles hprofiles
  · refine hwritten.lookup_override (P := fun value => value = some "true") hcurrent h.isolated ?_
    intro value hvalue
    rw [checkConfigEntry_isolated hvalue]
  · refine hwritten.lookup_override (P := fun value => value = none ∨ value = some "false") hcurrent h.privileged ?_
    intro value hvalue
    rw [checkConfigEntry_privileged hvalue]
    exact .inr rfl
  · intro device hdevice
    rw [checkDevice_ofStrings]
    refine mergeDevices_pass ?_ ?_ device hdevice
    · cases hdevices : document.devices with
      | none => simp
      | some devices => exact hdocument.devices devices hdevices
    · intro below hbelow
      rw [← checkDevice_ofStrings]
      exact h.devices below hbelow
  · intro entry hentry
    obtain hmem | ⟨hmem, -⟩ := mem_override hentry
    · obtain hsame | hallowed := hwritten.entry entry hmem
      · rw [hcurrent, unchanged_eq_true] at hsame
        exact h.config entry (mem_of_lookup hsame)
      · exact .inl hallowed
    · exact h.config entry hmem

/-- A change of the config that keeps the policy's keys. -/
theorem Confined.setConfig {key : String} {config maintained : List (String × String)}
    (hkey : key ∉ policyKeys) (hkept : ∀ other, (other == key) = false → config.lookup other = inst.config.lookup other)
    (hconfig : ∀ entry ∈ config, AllowListed entry.1 entry.2 ∨ maintained.lookup entry.1 = some entry.2) :
    { inst with config, maintained : Instance }.Confined := by
  have hpolicy : ∀ other ∈ policyKeys, config.lookup other = inst.config.lookup other := by
    intro other hother
    apply hkept
    rw [beq_eq_false_iff_ne]
    rintro rfl
    exact hkey hother
  refine ⟨h.profiles, ?_, ?_, h.devices, hconfig⟩
  · exact (hpolicy _ (by decide)).trans h.isolated
  · rw [hpolicy _ (by decide)]
    exact h.privileged

/-- Incus writing a key that is not the policy's keeps an instance confined. -/
theorem Confined.incusSets {key value : String} (hkey : key ∉ policyKeys) : { inst with
      config := override [(key, value)] inst.config
      maintained := override [(key, value)] inst.maintained : Instance }.Confined := by
  refine h.setConfig hkey (fun other hne => ?_) fun entry hentry => ?_
  · simp [lookup_override, List.lookup_cons, hne]
  obtain hmem | ⟨hmem, hother⟩ := mem_override hentry
  · rw [List.mem_singleton.mp hmem, lookup_override]
    right
    simp
  · rw [lookup_override, hother]
    exact h.config entry hmem

theorem Confined.incusDrops {key : String} (hkey : key ∉ policyKeys) :
    { inst with config := erase key inst.config : Instance }.Confined := by
  refine h.setConfig hkey (fun other hne => ?_) fun entry hentry => ?_
  · simp [lookup_erase, hne]
  · exact h.config entry (mem_erase hentry).1

end

end Instance

/-! ## Instances -/

theorem lookup_set (instances : Instances) (name other : String) (inst : Instance) :
    (instances.set name inst).lookup other = if other = name then some inst else instances.lookup other := by
  rw [Instances.set, lookup_override, List.lookup_cons]
  by_cases hname : other = name
  · simp [hname]
  · have hbeq : (other == name) = false := beq_eq_false_iff_ne.mpr hname
    simp [hname, hbeq]

namespace Instances

variable {instances : Instances} {name : String} {inst : Instance}

theorem Confined.set (h : instances.Confined)
    (hinst : isManagedInstance (some name) = true → inst.Confined) : (instances.set name inst).Confined := by
  intro other found hmanaged hfound
  rw [lookup_set] at hfound
  split at hfound
  · rename_i hname
    subst hname
    cases hfound
    exact hinst hmanaged
  · exact h other found hmanaged hfound

theorem Confined.erase (h : instances.Confined) : Instances.Confined (erase name instances) := by
  intro other found hmanaged hfound
  rw [lookup_erase] at hfound
  split at hfound
  · cases hfound
  · exact h other found hmanaged hfound

theorem Confined.setStatus (h : instances.Confined) {status : String} : (instances.setStatus name status).Confined := by
  unfold Instances.setStatus
  split
  · exact h
  rename_i inst hinst
  apply h.set
  intro hmanaged
  exact { h name inst hmanaged hinst with }

end Instances

/-! ## Reading a managed instance -/

variable {name : String}

section

variable (h : isManagedInstance (some name) = true)

include h

theorem isUnreserved_of_managed : ∀ c ∈ name.toList, isUnreserved c = true := by
  have htagged : ∀ tag : String, (∀ c ∈ tag.toList, isUnreserved c = true) →
      taggedHex tag 32 name = true → ∀ c ∈ name.toList, isUnreserved c = true := by
    intro tag htag hname c hc
    obtain ⟨rest, hrest, -, hhex⟩ := taggedHex_iff.mp hname
    rw [hrest, List.mem_append] at hc
    exact hc.elim (htag c) fun hc => isUnreserved_of_isLowerHex (hhex c hc)
  simp only [isManagedInstance, Bool.or_eq_true] at h
  obtain h | h := h
  · exact htagged "nyc-" (List.all_eq_true.mp (by decide)) h
  · exact htagged "nyabase-preflight-" (List.all_eq_true.mp (by decide)) h

/-- No other name is encoded like a managed one. -/
theorem instancePath_inj {other : String} (heq : instancePath other = instancePath name) : other = name := by
  have hplain := isUnreserved_of_managed h
  have hencoded : encodeURIComponent other = name := by
    rw [← encodeURIComponent_eq_self hplain]
    have hlists := congrArg String.toList heq
    simp only [instancePath, toString, String.toList_append] at hlists
    exact String.toList_inj.mp (List.append_cancel_left hlists)
  have hpercent : '%' ∉ (encodeURIComponent other).toList := by
    rw [hencoded]
    intro hmem
    exact absurd (hplain _ hmem) (by decide)
  rw [← encodeURIComponent_of_no_percent hpercent]
  exact hencoded

theorem read_managed {instances : Instances} :
    instances.read (instancePath name) = (instances.lookup name).map Instance.document := by
  unfold Instances.read
  induction instances with
  | nil => rfl
  | cons entry instances ih =>
    obtain ⟨other, inst⟩ := entry
    rw [List.find?_cons, List.lookup_cons]
    by_cases hname : other = name
    · subst hname
      simp
    · have hpath : (instancePath other == instancePath name) = false :=
        beq_eq_false_iff_ne.mpr fun heq => hname (instancePath_inj h heq)
      have hbeq : (name == other) = false := beq_eq_false_iff_ne.mpr (.symm hname)
      rw [hpath, hbeq]
      exact ih

end

theorem stringMap_document (inst : Instance) : stringMap (inst.document.lookup "config") = inst.config := by
  exact Json.strings_ofStrings inst.config

/-! ## What an allowed request leaves behind -/

section

variable {platform : Platform β} (decoder : Decoder platform) {request : PolicyRequest β}
  {instances : Instances} {outcome : Outcome}

/-- The body Incus decodes is the object the agent serialized. -/
theorem decode_serialize (fields : List (String × Json)) :
    ((some (serialize platform fields)).bind decoder.decode).bind Json.fields? = some fields := by
  rw [bind_some, serialize, decoder.decode_stringify]
  rfl

variable {fields : List (String × Json)}

theorem create_confined {source : List (String × Json)} (h : instances.Confined)
    (hdistinct : (fields.map Prod.fst).Nodup)
    (hshape : fieldsProblem platform fields instanceCreateFields "instance" = none)
    (hmanaged : isManagedInstance (stringField fields "name") = true)
    (hsource : fields.lookup "source" = some (.obj source))
    (himage : stringField source "type" = some "image") (hplain : setsVolatile fields = false)
    (hpasses : checkInstanceDocument fields { full := true } = .ok ()) :
    ∃ next, instances.create outcome fields = some next ∧ next.Confined := by
  obtain ⟨document, hdocument, hwritten⟩ := ((documentPasses hpasses).created hplain).reads
  have hexact : exactFields instancesPostNames fields = true := exactFields_of_shape rfl hdistinct hshape
  cases hname : stringField fields "name" with
  | none =>
    rw [hname] at hmanaged
    cases hmanaged
  | some name =>
    have hcreate : instances.create outcome fields = if (instances.lookup name).isSome then some instances
        else some (instances.set name (document.create outcome.status)) := by
      simp [Instances.create, hdocument, hname, hsource, Json.fields?, hexact, himage]
    rw [hcreate]
    split
    · exact ⟨instances, rfl, h⟩
    · exact ⟨_, rfl, h.set fun _ => Instance.confined_of_document hwritten rfl rfl rfl rfl (by rintro _ _ ⟨⟩)⟩

theorem update_confined {name : String} {inst : Instance} {options : DocumentCheckOptions}
    {write : Instance → DocumentBody → Instance} (h : instances.Confined) (hdistinct : (fields.map Prod.fst).Nodup)
    (hshape : fieldsProblem platform fields instanceUpdateFields "instance" = none)
    (hfound : instances.lookup name = some inst) (hcurrent : options.current = some inst.config)
    (hpasses : checkInstanceDocument fields options = .ok ()) (hwrite : ∀ document, DocumentWritten options document →
      isManagedInstance (some name) = true → (write inst document).Confined) :
    ∃ next, instances.update name write (currentVolatileBody fields inst.config) = some next ∧ next.Confined := by
  obtain ⟨document, hdocument, hwritten⟩ := ((documentPasses hpasses).updated hcurrent).reads
  have hexact : exactFields instancePutNames (currentVolatileBody fields inst.config) = true := by
    rw [exactFields_congr (map_fst_currentVolatileBody fields inst.config)]
    exact exactFields_of_shape rfl hdistinct hshape
  refine ⟨instances.set name (write inst document), ?_, h.set (hwrite document hwritten)⟩
  simp [Instances.update, hdocument, hexact, hfound]

variable {body : Option β} {up : Bool}

/-- Every write on instances that is allowed has an effect the model knows, and keeps them confined. -/
theorem InstanceGrant.confined (outcome : Outcome) {rest : List String}
    (hgrant : InstanceGrant platform request instances.read rest body up) (h : instances.Confined) :
    ∃ next, instances.write outcome request.method ("instances" :: rest)
        ((body.bind decoder.decode).bind Json.fields?) = some next ∧ next.Confined := by
  cases hgrant with
  | create method parsed shape managed hasSource image plain passes =>
    rw [decode_serialize decoder, method]
    exact create_confined h (jsonBody_nodup parsed) shape managed hasSource image plain passes
  | delete method =>
    rw [method]
    exact ⟨_, rfl, h.erase⟩
  | @rename name fields method managed parsed shape renamed =>
    rw [decode_serialize decoder, method]
    show ∃ next, instances.rename name fields = some next ∧ next.Confined
    have hexact : exactFields ["name"] fields = true := exactFields_of_shape rfl (jsonBody_nodup parsed) shape
    cases hname : stringField fields "name" with
    | none =>
      rw [hname] at renamed
      cases renamed
    | some newName =>
      simp only [Instances.rename, hname, hexact, bind_eq_bind, bind_some, if_true]
      split
      · rename_i inst hinst hfree
        exact ⟨_, rfl, h.erase.set fun _ => h _ inst managed hinst⟩
      · exact ⟨instances, rfl, h⟩
  | @update name fields current method managed parsed shape found passes =>
    rw [read_managed managed, map_eq_some_iff] at found
    obtain ⟨inst, hinst, rfl⟩ := found
    rw [stringMap_document] at passes ⊢
    rw [decode_serialize decoder]
    have hconfined := h name inst managed hinst
    obtain hput | hpatch := method
    · rw [hput] at passes ⊢
      exact update_confined h (jsonBody_nodup parsed) shape hinst rfl passes
        fun document hdocument _ => hconfined.replace rfl rfl hdocument
    · rw [hpatch] at passes ⊢
      exact update_confined h (jsonBody_nodup parsed) shape hinst rfl passes
        fun document hdocument _ => hconfined.merge rfl rfl hdocument
  | power method =>
    rw [method]
    exact ⟨_, rfl, h.setStatus⟩
  | exec method | deleteFile method | writeFile method => exact ⟨instances, rfl, h⟩

theorem handle_confined {context : PolicyContext} (h : instances.Confined)
    (hcontext : context.readCurrent = instances.read)
    (hallowed : checkIncusHttp platform request context = .allowed body up) :
    (instances.handle decoder outcome request.method request.path body).Confined := by
  unfold Instances.handle
  split
  · exact h
  rename_i hskip
  have hwrite : request.method ≠ .get := by
    intro hget
    simp [hget] at hskip
  rcases checkIncusHttp_allowed hallowed with ⟨hread, -⟩ | ⟨rest, query, ⟨hpath, hcheck⟩ | ⟨hpath, -⟩ | ⟨hpath, -⟩⟩
  · exact absurd hread hwrite
  · rw [hcontext] at hcheck
    obtain ⟨next, hnext, hconfined⟩ := (checkInstances_allowed hwrite hcheck).confined decoder outcome h
    rw [hpath]
    show Instances.Confined ((instances.write outcome request.method ("instances" :: rest) _).getD _)
    rwa [hnext]
  · rw [hpath]
    exact h
  · rw [hpath]
    exact h

/-! ## Runs -/

theorem step_confined {event : HostEvent β} {next : Instances} (h : instances.Confined)
    (hstep : step decoder instances event = some next) : next.Confined := by
  revert hstep
  fun_cases step decoder instances event with
  | case1 =>
    rintro ⟨⟩
    exact h
  | case2 submitted knows outcome body up hallowed =>
    rintro ⟨⟩
    exact handle_confined decoder h rfl hallowed
  | case4 name key value inst hinst hkey =>
    rintro ⟨⟩
    exact h.set fun hmanaged => (h name inst hmanaged hinst).incusSets (by simpa using hkey)
  | case7 name key inst hinst hkey =>
    rintro ⟨⟩
    exact h.set fun hmanaged => (h name inst hmanaged hinst).incusDrops (by simpa using hkey)
  | case9 =>
    rintro ⟨⟩
    exact h.setStatus
  | case11 name hmanaged inst =>
    rintro ⟨⟩
    exact h.set fun hname => absurd hname hmanaged
  | case12 =>
    rintro ⟨⟩
    exact h.erase
  | _ => nofun

/-- From a host without managed instances, whatever is submitted, every managed instance is confined; and
what is forwarded is the checked object serialized again, on an update with the `volatile.*` entries of its
config as Incus holds them, or the bytes of a file write. -/
theorem managed_instances_confined {start last : Instances} {events : List (HostEvent β)}
    (hstart : ∀ name inst, start.lookup name = some inst → isManagedInstance (some name) = false)
    (hrun : run (step decoder) start events = some last) :
    (∀ name inst, isManagedInstance (some name) = true → last.lookup name = some inst → inst.Confined) ∧
      ∀ (request : PolicyRequest β) (context : PolicyContext) (body : β) (up : Bool),
        checkIncusHttp platform request context = .allowed (some body) up →
        ForwardedBody platform request context.readCurrent body := by
  have hconfined : start.Confined := by
    intro name inst hmanaged hinst
    rw [hstart name inst hinst] at hmanaged
    cases hmanaged
  exact ⟨run_invariant (fun _ _ _ h hstep => step_confined decoder h hstep) hconfined hrun,
    fun _ _ _ _ => checkIncusHttp_forwardedBody⟩

end

/-! ## A run -/

/-- Bodies that are JSON values, parsed and written without loss. -/
def valuePlatform : Platform Json where
  isEmpty := fun _ => false
  parse := fun body =>
    match body with
    | .obj fields => if (fields.map Prod.fst).Nodup then some body else none
    | _ => some body
  stringify := id
  quote := fun text => text
  url := fun _ => none
  parse_nodup := by
    intro body fields h
    cases body with
    | obj entries =>
      obtain ⟨hnodup, h⟩ := ite_none_right_eq_some.mp h
      rw [← Json.obj.inj (Option.some.inj h)]
      exact hnodup
    | _ => cases h

def valueDecoder : Decoder valuePlatform where
  decode := some
  decode_stringify := fun _ => rfl

def sampleName : String := "nyc-0123456789abcdef0123456789abcdef"

def sampleNic : List (String × String) :=
  [("type", "nic"), ("nictype", "bridged"), ("parent", "br0"), ("host_name", "nyh0123456789ab"),
    ("security.ipv4_filtering", "true"), ("security.mac_filtering", "true"),
    ("ipv4.address", "10.0.0.2")]

def sampleOutcome : Outcome where
  accepted := true
  mergesDeviceKeys := true
  status := "Stopped"
  unknown := []

def sampleCreate : PolicyRequest Json where
  method := .post
  path := "/1.0/instances"
  body := some (.obj [("name", .str sampleName), ("profiles", .arr []),
    ("source", .obj [("type", .str "image"), ("fingerprint", .str "ab")]),
    ("config", Json.ofStrings [("security.idmap.isolated", "true")]),
    ("devices", .obj [("eth0", Json.ofStrings sampleNic)])])

/-- An update that echoes an outdated `volatile.*` value. -/
def samplePut : PolicyRequest Json where
  method := .put
  path := "/1.0/instances/" ++ sampleName
  body := some (.obj [("profiles", .arr []),
    ("config", Json.ofStrings [("security.idmap.isolated", "true"), ("volatile.idmap.base", "1"),
      ("limits.memory", "512MiB")]),
    ("devices", .obj [("eth0", Json.ofStrings sampleNic)])])

/-- A create, after which Incus writes a key of its own. -/
def sampleEvents : List (HostEvent Json) :=
  [.request sampleCreate (fun _ => false) sampleOutcome, .incusSets sampleName "volatile.idmap.base" "1000000"]

def sampleInstances (config : List (String × String)) : Instances :=
  [(sampleName,
    { profiles := []
      config
      devices := [("eth0", sampleNic)]
      status := "Stopped"
      maintained := [("volatile.idmap.base", "1000000")] })]

theorem run_sampleEvents : run (step valueDecoder) [] sampleEvents = some (sampleInstances
        [("volatile.idmap.base", "1000000"), ("security.idmap.isolated", "true")]) := by
  decide +kernel

/-- The update changes the limit and leaves the key Incus maintains as it is. -/
theorem run_samplePut : run (step valueDecoder) []
        (sampleEvents ++ [.request samplePut (fun _ => false) sampleOutcome]) =
      some (sampleInstances [("security.idmap.isolated", "true"),
        ("volatile.idmap.base", "1000000"), ("limits.memory", "512MiB")]) := by
  decide +kernel

theorem sample_instance_confined : ∃ last inst, run (step valueDecoder) []
        (sampleEvents ++ [.request samplePut (fun _ => false) sampleOutcome]) = some last ∧
      last.lookup sampleName = some inst ∧ inst.Confined := by
  have hconfined := (managed_instances_confined valueDecoder (by simp) run_samplePut).1
  exact ⟨_, _, run_samplePut, rfl, hconfined sampleName _ (by decide) rfl⟩

/-- The entry of a forwarded body's config. -/
def configEntry (key : String) (body : Json) : Option String :=
  ((body.fields?.bind fun fields => fields.lookup "config").bind Json.fields?).bind fun config =>
    stringField config key

/-- The body forwarded for that update is not the serialization of the object that was checked. -/
theorem update_forwards_other_volatile : ∃ last fields body up, run (step valueDecoder) [] sampleEvents = some last ∧
      jsonBody valuePlatform samplePut.body = some fields ∧
      checkIncusHttp valuePlatform samplePut { readCurrent := last.read, knows := fun _ => false } =
        .allowed (some body) up ∧
      body ≠ serialize valuePlatform fields := by
  have hverdict : (checkIncusHttp valuePlatform samplePut
        { readCurrent := Instances.read (sampleInstances
            [("volatile.idmap.base", "1000000"), ("security.idmap.isolated", "true")])
          knows := fun _ => false }).body?.bind (configEntry "volatile.idmap.base") =
      some "1000000" := by
    decide +kernel
  obtain ⟨body, hbody, hforwarded⟩ := bind_eq_some_iff.mp hverdict
  obtain ⟨up, hallowed⟩ := exists_allowed_of_body? hbody
  refine ⟨_, _, body, up, run_sampleEvents, rfl, hallowed, ?_⟩
  intro hsame
  rw [hsame] at hforwarded
  revert hforwarded
  decide

end Nyabase.Agent
