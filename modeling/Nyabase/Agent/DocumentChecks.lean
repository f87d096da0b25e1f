import Nyabase.Agent.InstanceDocument

/-!
# What the document checks establish

One lemma per check.  A device that passes keeps passing when another passing device of the same name is
laid over it, because a device's name fixes its type and every key a type requires is in the new device.
-/

namespace Nyabase.Agent

open Lib Common AssocList Json

/-! ## Config entries -/

/-- On the allow-list, and not a key that belongs to Incus. -/
def AllowListed (key value : String) : Prop :=
  isVolatile key = false ∧ checkConfigEntry key value = .ok ()

variable {value key name : String} {fields : List (String × Json)} {options : DocumentCheckOptions}
  {device new old : List (String × String)}

theorem checkConfigEntry_isolated (h : checkConfigEntry "security.idmap.isolated" value = .ok ()) : value = "true" := by
  have hvolatile : isVolatile "security.idmap.isolated" = false := by decide
  have huser : startsWith "user.nyabase." "security.idmap.isolated" = false := by decide
  have himage : startsWith "image." "security.idmap.isolated" = false := by decide
  simpa [checkConfigEntry, hvolatile, huser, himage] using h

theorem checkConfigEntry_privileged (h : checkConfigEntry "security.privileged" value = .ok ()) : value = "false" := by
  have hvolatile : isVolatile "security.privileged" = false := by decide
  have huser : startsWith "user.nyabase." "security.privileged" = false := by decide
  have himage : startsWith "image." "security.privileged" = false := by decide
  simpa [checkConfigEntry, hvolatile, huser, himage] using h

/-- An entry that passes is a string, echoed or allowed. -/
theorem checkConfigField_eq_ok {current : Option (List (String × String))} {entry : String × Json} :
    checkConfigField current entry = .ok () ↔ ∃ value, entry.2 = .str value ∧
        (unchanged current entry.1 value = true ∨ checkConfigEntry entry.1 value = .ok ()) := by
  obtain ⟨key, value⟩ := entry
  cases value with
  | str text =>
    simp only [checkConfigField, str?]
    cases hunchanged : unchanged current key text with
    | true => simp [allow, hunchanged]
    | false => simp [hunchanged]
  | _ => simp [checkConfigField, str?, refuse]

theorem unchanged_eq_true {current : List (String × String)} :
    unchanged (some current) key value = true ↔ current.lookup key = some value := by
  simp [unchanged]

/-! ## Maps of strings inside documents -/

/-- An object whose values are all strings is the map of strings it holds. -/
theorem eq_ofStrings (h : ∀ entry ∈ fields, ∃ value, entry.2 = .str value) :
    fields = (strings fields).map fun entry => (entry.1, .str entry.2) := by
  induction fields with
  | nil => rfl
  | cons entry fields ih =>
    obtain ⟨key, value⟩ := entry
    obtain ⟨text, rfl⟩ := h _ List.mem_cons_self
    have hrest := ih fun other hother => h other (List.mem_cons_of_mem _ hother)
    show (key, .str text) :: fields = (key, str text) :: (strings fields).map fun entry => (entry.1, str entry.2)
    rw [← hrest]

theorem strings_of_length (h : (strings fields).length = fields.length) :
    ∀ entry ∈ fields, ∃ value, entry.2 = .str value := by
  intro entry hentry
  obtain ⟨key, value⟩ := entry
  have hall := List.filterMap_length_eq_length.mp h
  have hsome := hall _ hentry
  cases value with
  | str text => exact ⟨text, rfl⟩
  | _ => simp [str?] at hsome

theorem lookup_ofStrings (entries : List (String × String)) (key : String) :
    (entries.map fun entry => (entry.1, str entry.2)).lookup key = (entries.lookup key).map str :=
  lookup_map (fun _ value => str value) entries key

theorem stringField_ofStrings (entries : List (String × String)) (key : String) :
    stringField (entries.map fun entry => (entry.1, str entry.2)) key = entries.lookup key := by
  rw [stringField, lookup_ofStrings]
  cases entries.lookup key with
  | none | some value => rfl

/-! ## Configs -/

/-- What `checkInstanceConfig` establishes about the entries of a config. -/
structure ConfigPasses (options : DocumentCheckOptions) (entries : List (String × String)) : Prop where
  entry : ∀ entry ∈ entries,
    unchanged options.current entry.1 entry.2 = true ∨ checkConfigEntry entry.1 entry.2 = .ok ()
  isolated : options.full = true → entries.lookup "security.idmap.isolated" = some "true"
  privileged : options.full = true →
    entries.lookup "security.privileged" = none ∨ entries.lookup "security.privileged" = some "false"

theorem checkInstanceConfig_eq_ok {config : List (String × Json)} (h : checkInstanceConfig config options = .ok ()) :
    ∃ entries, config = entries.map (fun entry => (entry.1, str entry.2)) ∧ ConfigPasses options entries := by
  obtain ⟨⟨⟩, hfields, hfull⟩ := bind_eq_ok.mp h
  rw [checkAll_eq_ok] at hfields
  have hconfig := eq_ofStrings fun entry hentry =>
    (checkConfigField_eq_ok.mp (hfields entry hentry)).imp fun value hvalue => hvalue.1
  generalize strings config = entries at hconfig
  subst hconfig
  have hrequired : options.full = true → entries.lookup "security.idmap.isolated" = some "true" ∧
        (entries.lookup "security.privileged" = none ∨ entries.lookup "security.privileged" = some "false") := by
    intro hoption
    rw [if_pos hoption, ensure_bind_eq_ok, ensure_eq_ok, stringField_ofStrings, stringField_ofStrings,
      lookup_ofStrings] at hfull
    simpa using hfull
  refine ⟨entries, rfl, ?_, fun hoption => (hrequired hoption).1, fun hoption => (hrequired hoption).2⟩
  intro entry hentry
  have hmem : (entry.1, str entry.2) ∈ entries.map fun entry => (entry.1, str entry.2) :=
    List.mem_map.mpr ⟨entry, hentry, rfl⟩
  obtain ⟨value, hvalue, hpasses⟩ := checkConfigField_eq_ok.mp (hfields _ hmem)
  rwa [← str.inj hvalue] at hpasses

/-! ## Devices -/

theorem checkDevice_ofStrings (name : String) (entries : List (String × String)) :
    checkDevice name (ofStrings entries) = checkDeviceEntries name entries := by
  simp [checkDevice, ofStrings, fields?]

/-- A device that passes is a map of strings that passes. -/
theorem checkDevice_eq_ok {device : Json} (h : checkDevice name device = .ok ()) :
    ∃ entries, device = ofStrings entries ∧ checkDeviceEntries name entries = .ok () := by
  cases device with
  | obj fields =>
    simp only [checkDevice, fields?] at h
    split at h
    · cases h
    rename_i hlength
    have hfields := eq_ofStrings (strings_of_length (not_not.mp hlength))
    refine ⟨strings fields, ?_, h⟩
    rw [ofStrings, ← hfields]
  | _ => cases h

theorem onlyKeys_override {allowed : List String} (hnew : onlyKeys new allowed = true)
    (hold : onlyKeys old allowed = true) : onlyKeys (override new old) allowed = true := by
  rw [onlyKeys, List.all_eq_true] at *
  intro entry hentry
  obtain hmem | ⟨hmem, -⟩ := mem_override hentry
  · exact hnew entry hmem
  · exact hold entry hmem

theorem lookup_override_of_some (h : new.lookup key = some value) : (override new old).lookup key = some value := by
  rw [lookup_override, h]
  rfl

/-- A text the new device states is not touched by the old one. -/
theorem deviceText_override (h : deviceText new key ≠ "") :
    deviceText (override new old) key = deviceText new key := by
  cases hlookup : new.lookup key with
  | none => exact absurd (by rw [deviceText, hlookup]; rfl) h
  | some value => rw [deviceText, lookup_override_of_some hlookup, deviceText, hlookup]

theorem deviceText_ne_empty {p : String → Bool} (hempty : p "" = false) (h : p (deviceText device key) = true) :
    deviceText device key ≠ "" := by
  intro heq
  rw [heq, hempty] at h
  cases h

/-! ### Disks -/

theorem checkDisk_root : checkDisk "root" device = .ok () ↔
      onlyKeys device diskKeys = true ∧ deviceText device "pool" ≠ "" ∧
        device.lookup "path" = some "/" ∧ device.lookup "source" = none := by
  simp [checkDisk, ensure_bind_eq_ok]

theorem checkDisk_attachment (hname : name ≠ "root") : checkDisk name device = .ok () ↔
      onlyKeys device diskKeys = true ∧ deviceText device "pool" ≠ "" ∧
        managedAttachmentDevice name = true ∧ managedVolumeName (deviceText device "source") = true ∧
        isAttachmentPath (deviceText device "path") = true ∧
        isForbiddenContainerMountPath (deviceText device "path") = false := by
  simp [checkDisk, ensure_bind_eq_ok, hname]

theorem checkDisk_override (hnew : checkDisk name new = .ok ()) (hold : checkDisk name old = .ok ()) :
    checkDisk name (override new old) = .ok () := by
  by_cases hname : name = "root"
  · subst hname
    obtain ⟨hkeys, hpool, hpath, hsource⟩ := checkDisk_root.mp hnew
    obtain ⟨hkeys', -, -, hsource'⟩ := checkDisk_root.mp hold
    apply checkDisk_root.mpr
    refine ⟨onlyKeys_override hkeys hkeys', ?_, lookup_override_of_some hpath, ?_⟩
    · rwa [deviceText_override hpool]
    · rw [lookup_override, hsource, hsource']
      rfl
  · obtain ⟨hkeys, hpool, hdevice, hsource, hpath, hroot⟩ := (checkDisk_attachment hname).mp hnew
    have hkeys' := ((checkDisk_attachment hname).mp hold).1
    have hsource' := deviceText_ne_empty (p := managedVolumeName) (by decide) hsource
    have hpath' := deviceText_ne_empty (p := isAttachmentPath) (by decide) hpath
    apply (checkDisk_attachment hname).mpr
    rw [deviceText_override hpool, deviceText_override hsource', deviceText_override hpath']
    exact ⟨onlyKeys_override hkeys hkeys', hpool, hdevice, hsource, hpath, hroot⟩

/-! ### NICs and GPUs -/

theorem checkNic_eq_ok : checkNic name device = .ok () ↔ name = "eth0" ∧ onlyKeys device nicKeys = true ∧
        (device.lookup "nictype" = some "bridged" ∧ deviceText device "parent" ≠ "") ∧
        [none, some "true", some "false"].contains (device.lookup "security.port_isolation") = true ∧
        managedNicHostName (deviceText device "host_name") = true ∧
        (device.lookup "security.ipv4_filtering" = some "true" ∧ device.lookup "security.mac_filtering" = some "true") ∧
        deviceText device "ipv4.address" ≠ "" := by
  simp [checkNic, ensure_bind_eq_ok, ensure_eq_ok]

theorem checkNic_override (hnew : checkNic name new = .ok ()) (hold : checkNic name old = .ok ()) :
    checkNic name (override new old) = .ok () := by
  obtain ⟨hname, hkeys, ⟨hnictype, hparent⟩, hisolation, hhost, ⟨hipv4, hmac⟩, haddress⟩ := checkNic_eq_ok.mp hnew
  obtain ⟨-, hkeys', -, hisolation', -⟩ := checkNic_eq_ok.mp hold
  have hhost' := deviceText_ne_empty (p := managedNicHostName) (by decide) hhost
  apply checkNic_eq_ok.mpr
  rw [deviceText_override hparent, deviceText_override hhost', deviceText_override haddress]
  refine ⟨hname, onlyKeys_override hkeys hkeys', ⟨lookup_override_of_some hnictype, hparent⟩, ?_, hhost,
    ⟨lookup_override_of_some hipv4, lookup_override_of_some hmac⟩, haddress⟩
  -- port isolation is the one key a NIC may leave to the device below it
  rw [lookup_override]
  cases hlookup : new.lookup "security.port_isolation" with
  | none => exact hisolation'
  | some value =>
    rw [hlookup] at hisolation
    exact hisolation

theorem checkGpu_eq_ok : checkGpu name device = .ok () ↔ isGpuName name = true ∧ onlyKeys device gpuKeys = true ∧
        device.lookup "gputype" = some "physical" ∧ isPciAddress (deviceText device "pci") = true := by
  simp [checkGpu, ensure_bind_eq_ok, ensure_eq_ok]

theorem checkGpu_override (hnew : checkGpu name new = .ok ()) (hold : checkGpu name old = .ok ()) :
    checkGpu name (override new old) = .ok () := by
  obtain ⟨hname, hkeys, htype, hpci⟩ := checkGpu_eq_ok.mp hnew
  have hkeys' := (checkGpu_eq_ok.mp hold).2.1
  have hpci' := deviceText_ne_empty (p := isPciAddress) (by decide) hpci
  apply checkGpu_eq_ok.mpr
  rw [deviceText_override hpci']
  exact ⟨hname, onlyKeys_override hkeys hkeys', lookup_override_of_some htype, hpci⟩

/-! ### The name of a device fixes its type -/

inductive DeviceKind where
  | disk | nic | gpu
  deriving DecidableEq

/-- The type a device of this name has when it passes. -/
def deviceKind (name : String) : DeviceKind :=
  if name = "eth0" then .nic else if isGpuName name then .gpu else .disk

def DeviceKind.label : DeviceKind → String
  | .disk => "disk"
  | .nic => "nic"
  | .gpu => "gpu"

/-- The check of a device of one type. -/
def DeviceKind.check : DeviceKind → String → List (String × String) → Check
  | .disk => checkDisk
  | .nic => checkNic
  | .gpu => checkGpu

theorem deviceKind_of_disk (h : checkDisk name device = .ok ()) : deviceKind name = .disk := by
  by_cases hroot : name = "root"
  · subst hroot
    decide
  have hdevice := ((checkDisk_attachment hroot).mp h).2.2.1
  obtain ⟨rest, hrest, -⟩ := taggedHex_iff.mp hdevice
  have heth : name ≠ "eth0" := by
    rintro rfl
    revert hdevice
    decide
  have hgpu : isGpuName name = false := by
    rw [isGpuName, hrest]
    rfl
  rw [deviceKind, if_neg heth, hgpu]
  rfl

/-- A device passes exactly when it has the type of its name and passes that type's check. -/
theorem checkDeviceEntries_eq_ok {entries : List (String × String)} : checkDeviceEntries name entries = .ok () ↔
      entries.lookup "type" = some (deviceKind name).label ∧ (deviceKind name).check name entries = .ok () := by
  constructor
  · intro h
    unfold checkDeviceEntries at h
    split at h
    · rename_i htype
      rw [deviceKind_of_disk h]
      exact ⟨htype, h⟩
    · rename_i htype
      have hkind : deviceKind name = .nic := by rw [deviceKind, if_pos (checkNic_eq_ok.mp h).1]
      rw [hkind]
      exact ⟨htype, h⟩
    · rename_i htype
      have hname := (checkGpu_eq_ok.mp h).1
      have heth : name ≠ "eth0" := by
        rintro rfl
        revert hname
        decide
      have hkind : deviceKind name = .gpu := by rw [deviceKind, if_neg heth, if_pos hname]
      rw [hkind]
      exact ⟨htype, h⟩
    · cases h
  · rintro ⟨htype, h⟩
    unfold checkDeviceEntries
    rw [htype]
    cases hkind : deviceKind name with
    | disk | nic | gpu => rwa [hkind] at h

theorem DeviceKind.check_override {kind : DeviceKind} (hnew : kind.check name new = .ok ())
    (hold : kind.check name old = .ok ()) : kind.check name (override new old) = .ok () := by
  cases kind with
  | disk => exact checkDisk_override hnew hold
  | nic => exact checkNic_override hnew hold
  | gpu => exact checkGpu_override hnew hold

/-! ## Documents -/

/-- What `checkInstanceDocument` establishes about a body. -/
structure DocumentPasses (options : DocumentCheckOptions) (body : List (String × Json)) : Prop where
  profiles : (body.lookup "profiles").isSome || options.full → body.lookup "profiles" = some (.arr [])
  config : (body.lookup "config").isSome || options.full →
    ∃ entries, body.lookup "config" = some (ofStrings entries) ∧ ConfigPasses options entries
  devices : (body.lookup "devices").isSome || options.full → ∃ devices : List (String × List (String × String)),
      body.lookup "devices" = some (.obj (devices.map fun device => (device.1, ofStrings device.2))) ∧
      ∀ device ∈ devices, checkDeviceEntries device.1 device.2 = .ok ()

theorem noProfiles_eq_true {profiles : Option Json} (h : noProfiles profiles = true) : profiles = some (.arr []) := by
  cases profiles with
  | none => cases h
  | some value =>
    cases value with
    | arr items =>
      cases items with
      | nil => rfl
      | cons item items => cases h
    | _ => cases h

/-- Devices that all pass are maps of strings that pass. -/
theorem devices_ofStrings {devices : List (String × Json)}
    (h : ∀ device ∈ devices, checkDevice device.1 device.2 = .ok ()) : ∃ maps : List (String × List (String × String)),
      devices = maps.map (fun device => (device.1, ofStrings device.2)) ∧
        ∀ device ∈ maps, checkDeviceEntries device.1 device.2 = .ok () := by
  induction devices with
  | nil => exact ⟨[], rfl, by simp⟩
  | cons device devices ih =>
    obtain ⟨name, value⟩ := device
    obtain ⟨entries, rfl, hentries⟩ := checkDevice_eq_ok (h _ List.mem_cons_self)
    obtain ⟨maps, rfl, hmaps⟩ := ih fun other hother => h other (List.mem_cons_of_mem _ hother)
    exact ⟨(name, entries) :: maps, rfl, List.forall_mem_cons.mpr ⟨hentries, hmaps⟩⟩

/-- A part that passes as an object is that object. -/
theorem eq_obj_of_fields? {value : Option Json} (h : value.bind fields? = some fields) :
    value = some (.obj fields) := by
  obtain ⟨json, rfl, hfields⟩ := Option.bind_eq_some_iff.mp h
  rw [fields?_eq_some.mp hfields]

theorem documentPasses {body : List (String × Json)} (h : checkInstanceDocument body options = .ok ()) :
    DocumentPasses options body := by
  obtain ⟨⟨⟩, hprofiles, h⟩ := bind_eq_ok.mp h
  obtain ⟨-, h⟩ := ensure_bind_eq_ok.mp h
  obtain ⟨-, h⟩ := ensure_bind_eq_ok.mp h
  obtain ⟨⟨⟩, hconfig, hdevices⟩ := bind_eq_ok.mp h
  constructor
  · intro hpresent
    rw [checkPart, if_pos hpresent] at hprofiles
    exact noProfiles_eq_true (ensure_eq_ok.mp hprofiles)
  · intro hpresent
    rw [checkPart, if_pos hpresent] at hconfig
    unfold checkConfigPart at hconfig
    split at hconfig
    · cases hconfig
    · rename_i fields hfields
      obtain ⟨entries, rfl, hpasses⟩ := checkInstanceConfig_eq_ok hconfig
      exact ⟨entries, eq_obj_of_fields? hfields, hpasses⟩
  · intro hpresent
    rw [checkPart, if_pos hpresent] at hdevices
    unfold checkDevicesPart at hdevices
    split at hdevices
    · cases hdevices
    · rename_i fields hfields
      obtain ⟨maps, rfl, hpasses⟩ := devices_ofStrings (checkAll_eq_ok.mp hdevices)
      exact ⟨maps, eq_obj_of_fields? hfields, hpasses⟩

end Nyabase.Agent
