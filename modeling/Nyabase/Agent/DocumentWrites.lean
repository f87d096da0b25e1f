import Nyabase.Agent.PolicyGrants

/-!
# What a passing document writes

Incus reads the body the agent forwards, not the one it was sent.  This module follows a checked body
through the replacement of its `volatile.*` entries to the document Incus reads.
-/

namespace Nyabase.Agent

open Lib Common List Json

/-! ## Reading what the agent serialized -/

@[simp] theorem readStrings_ofStrings (entries : List (String × String)) :
    readStrings (ofStrings entries) = some entries := by
  simp [readStrings, ofStrings, fields?]

@[simp] theorem readDevices_ofStrings (maps : List (String × List (String × String))) :
    readDevices (.obj (maps.map fun device => (device.1, ofStrings device.2))) = some maps := by
  simp only [readDevices, fields?]
  refine mapM_eq_some_iff.mpr (forall₂_map_left_iff.mpr (forall₂_same.mpr fun device _ => ?_))
  rw [readStrings_ofStrings]
  rfl

/-! ## The config that is written -/

/-- Every entry is the one Incus holds or on the allow-list. -/
structure ConfigWritten (options : DocumentCheckOptions) (entries : List (String × String)) : Prop where
  entry : ∀ entry ∈ entries, unchanged options.current entry.1 entry.2 = true ∨ AllowListed entry.1 entry.2
  isolated : options.full = true → entries.lookup "security.idmap.isolated" = some "true"
  privileged : options.full = true →
    entries.lookup "security.privileged" = none ∨ entries.lookup "security.privileged" = some "false"

/-- `currentVolatile` on maps of strings. -/
def forceVolatile (current entries : List (String × String)) : List (String × String) :=
  entries.filterMap fun entry =>
    if isVolatile entry.1 then (current.lookup entry.1).map fun value => (entry.1, value) else some entry

theorem filterMap_currentVolatile (current entries : List (String × String)) :
    (entries.map fun entry => (entry.1, str entry.2)).filterMap (currentVolatile current) =
      (forceVolatile current entries).map fun entry => (entry.1, str entry.2) := by
  induction entries with
  | nil => rfl
  | cons entry entries ih =>
    obtain ⟨key, value⟩ := entry
    rw [forceVolatile] at ih
    rw [forceVolatile, map_cons, filterMap_cons, filterMap_cons, ih]
    cases hvolatile : isVolatile key with
    | false => simp [currentVolatile, hvolatile]
    | true =>
      cases hcurrent : current.lookup key with
      | none | some held => simp [currentVolatile, hvolatile, hcurrent]

variable {current entries : List (String × String)} {key : String} {options : DocumentCheckOptions}
  {body : List (String × Json)}

theorem lookup_forceVolatile (h : isVolatile key = false) :
    (forceVolatile current entries).lookup key = entries.lookup key := by
  induction entries with
  | nil => rfl
  | cons entry entries ih =>
    obtain ⟨k, v⟩ := entry
    rw [forceVolatile] at ih
    rw [forceVolatile, filterMap_cons]
    by_cases hk : key = k
    · subst hk
      simp [h]
    have hbeq : (key == k) = false := beq_eq_false_iff_ne.mpr hk
    cases hvolatile : isVolatile k with
    | false => simp [lookup_cons, hbeq, ih]
    | true =>
      cases hcurrent : current.lookup k with
      | none | some held => simp [lookup_cons, hbeq, ih]

theorem ConfigPasses.forceVolatile (h : ConfigPasses options entries) (hcurrent : options.current = some current) :
    ConfigWritten options (forceVolatile current entries) := by
  refine ⟨?_, ?_, ?_⟩
  · intro entry hentry
    obtain ⟨⟨key, value⟩, hmem, hkept⟩ := mem_filterMap.mp hentry
    split at hkept
    · obtain ⟨held, hheld, rfl⟩ := Option.map_eq_some_iff.mp hkept
      left
      rwa [hcurrent, unchanged_eq_true]
    · rename_i hvolatile
      cases hkept
      exact (h.entry _ hmem).imp_right fun hallowed => ⟨Bool.eq_false_iff.mpr hvolatile, hallowed⟩
  · intro hfull
    rw [lookup_forceVolatile (by decide)]
    exact h.isolated hfull
  · intro hfull
    rw [lookup_forceVolatile (by decide)]
    exact h.privileged hfull

/-- Without volatile keys every entry that passes is held or on the allow-list. -/
theorem ConfigPasses.plain (h : ConfigPasses options entries) (hplain : ∀ entry ∈ entries, isVolatile entry.1 = false) :
    ConfigWritten options entries :=
  ⟨fun entry hentry => (h.entry entry hentry).imp_right fun hallowed => ⟨hplain entry hentry, hallowed⟩,
    h.isolated, h.privileged⟩

/-- The value of a policy key after a written fragment is laid over a config that satisfies `P` there. -/
theorem ConfigWritten.lookup_override {new old : List (String × String)} {P : Option String → Prop}
    (h : ConfigWritten options new) (hcurrent : options.current = some old) (hold : P (old.lookup key))
    (hentry : ∀ value, checkConfigEntry key value = .ok () → P (some value)) :
    P ((AssocList.override new old).lookup key) := by
  rw [AssocList.lookup_override]
  cases hnew : new.lookup key with
  | none => exact hold
  | some value =>
    obtain hsame | hallowed := h.entry _ (AssocList.mem_of_lookup hnew)
    · rw [hcurrent, unchanged_eq_true] at hsame
      rw [hsame] at hold
      exact hold
    · exact hentry value hallowed.2

/-! ## The document that is written -/

structure DocumentWritten (options : DocumentCheckOptions) (document : DocumentBody) : Prop where
  profiles : ∀ profiles, document.profiles = some profiles → profiles = []
  config : ∀ config, document.config = some config → ConfigWritten options config
  devices : ∀ devices, document.devices = some devices →
    ∀ device ∈ devices, checkDeviceEntries device.1 device.2 = .ok ()
  /-- A whole document states its profiles and its config. -/
  whole : options.full = true → document.profiles.isSome = true ∧ document.config.isSome = true

/-- The parts of a forwarded body, each left out or of the shape its check establishes. -/
structure BodyParts (options : DocumentCheckOptions) (body : List (String × Json)) : Prop where
  profiles : body.lookup "profiles" = none ∨ body.lookup "profiles" = some (.arr [])
  config : body.lookup "config" = none ∨
    ∃ entries, body.lookup "config" = some (ofStrings entries) ∧ ConfigWritten options entries
  devices : body.lookup "devices" = none ∨ ∃ maps : List (String × List (String × String)),
      body.lookup "devices" = some (.obj (maps.map fun device => (device.1, ofStrings device.2))) ∧
      ∀ device ∈ maps, checkDeviceEntries device.1 device.2 = .ok ()
  whole : options.full = true → body.lookup "profiles" ≠ none ∧ body.lookup "config" ≠ none

theorem BodyParts.reads (h : BodyParts options body) :
    ∃ document, readDocument body = some document ∧ DocumentWritten options document := by
  obtain ⟨profiles, hprofiles, hprofiles', hstated⟩ :
      ∃ profiles, readOptional readProfiles (body.lookup "profiles") = some profiles ∧
        (∀ list, profiles = some list → list = []) ∧
        (body.lookup "profiles" ≠ none → profiles.isSome = true) := by
    obtain hnone | hsome := h.profiles
    · exact ⟨none, by rw [hnone]; rfl, by simp, fun hne => absurd hnone hne⟩
    · exact ⟨some [], by rw [hsome]; rfl, by simp, fun _ => rfl⟩
  obtain ⟨config, hconfig, hconfig', hstated'⟩ :
      ∃ config, readOptional readStrings (body.lookup "config") = some config ∧
        (∀ entries, config = some entries → ConfigWritten options entries) ∧
        (body.lookup "config" ≠ none → config.isSome = true) := by
    obtain hnone | ⟨entries, hsome, hwritten⟩ := h.config
    · exact ⟨none, by rw [hnone]; rfl, by simp, fun hne => absurd hnone hne⟩
    · refine ⟨some entries, by rw [hsome]; simp [readOptional], ?_, fun _ => rfl⟩
      intro written hsame
      rwa [← Option.some.inj hsame]
  obtain ⟨devices, hdevices, hdevices'⟩ : ∃ devices, readOptional readDevices (body.lookup "devices") = some devices ∧
        ∀ maps, devices = some maps → ∀ device ∈ maps, checkDeviceEntries device.1 device.2 = .ok () := by
    obtain hnone | ⟨maps, hsome, hpass⟩ := h.devices
    · exact ⟨none, by rw [hnone]; rfl, by simp⟩
    · refine ⟨some maps, by rw [hsome]; simp [readOptional], ?_⟩
      intro written hsame
      rwa [← Option.some.inj hsame]
  refine ⟨⟨profiles, config, devices⟩, ?_, hprofiles', hconfig', hdevices', ?_⟩
  · simp [readDocument, hprofiles, hconfig, hdevices]
  · intro hfull
    exact ⟨hstated (h.whole hfull).1, hstated' (h.whole hfull).2⟩

/-! ## From the checked body to the forwarded one -/

theorem map_fst_currentVolatileBody (body : List (String × Json)) (current : List (String × String)) :
    (currentVolatileBody body current).map Prod.fst = body.map Prod.fst := by
  unfold currentVolatileBody
  split
  · rfl
  · rw [setConfig, map_map]
    rfl

theorem lookup_setConfig (body config : List (String × Json)) (key : String) : (setConfig body config).lookup key =
      (body.lookup key).map fun value => if key == "config" then .obj config else value :=
  AssocList.lookup_map (fun key value => if key == "config" then obj config else value) body key

theorem lookup_config_currentVolatileBody (h : body.lookup "config" = some (ofStrings entries)) :
    (currentVolatileBody body current).lookup "config" = some (ofStrings (forceVolatile current entries)) := by
  have hfields : (body.lookup "config").bind fields? = some (entries.map fun entry => (entry.1, str entry.2)) := by
    rw [h]
    rfl
  rw [currentVolatileBody, hfields]
  rw [lookup_setConfig, h, filterMap_currentVolatile]
  rfl

/-- A part that passes is left out of a fragment or has the shape its check establishes. -/
theorem eq_none_or_of_present {value : Option Json} {full : Bool} {P : Prop}
    (h : value.isSome || full → P) : value = none ∨ P := by
  cases value with
  | none => exact .inl rfl
  | some json => exact .inr (h rfl)

/-- The body an update forwards. -/
theorem DocumentPasses.updated (h : DocumentPasses options body) (hcurrent : options.current = some current) :
    BodyParts options (currentVolatileBody body current) := by
  have hkept : ∀ key, key ≠ "config" → (currentVolatileBody body current).lookup key = body.lookup key := by
    intro key hkey
    unfold currentVolatileBody
    split
    · rfl
    · simp [lookup_setConfig, hkey]
  refine ⟨?_, ?_, ?_, ?_⟩
  · rw [hkept "profiles" (by decide)]
    exact eq_none_or_of_present h.profiles
  · obtain hnone | ⟨entries, hentries, hpasses⟩ := eq_none_or_of_present h.config
    · left
      rw [currentVolatileBody, hnone]
      exact hnone
    · right
      exact ⟨_, lookup_config_currentVolatileBody hentries, hpasses.forceVolatile hcurrent⟩
  · rw [hkept "devices" (by decide)]
    exact eq_none_or_of_present h.devices
  · intro hfull
    obtain ⟨entries, hentries, -⟩ := h.config (by rw [hfull, Bool.or_true])
    rw [hkept "profiles" (by decide), h.profiles (by rw [hfull, Bool.or_true]),
      lookup_config_currentVolatileBody hentries]
    exact ⟨Option.some_ne_none _, Option.some_ne_none _⟩

/-- The body a create forwards. -/
theorem DocumentPasses.created {body : List (String × Json)}
    (h : DocumentPasses { full := true } body) (hplain : setsVolatile body = false) :
    BodyParts { full := true } body := by
  refine ⟨eq_none_or_of_present h.profiles, ?_, eq_none_or_of_present h.devices, ?_⟩
  · obtain ⟨entries, hentries, hpasses⟩ := h.config (Bool.or_true _)
    refine .inr ⟨entries, hentries, hpasses.plain ?_⟩
    intro entry hentry
    rw [setsVolatile, hentries] at hplain
    have hmem : (entry.1, str entry.2) ∈ entries.map fun entry => (entry.1, str entry.2) :=
      mem_map.mpr ⟨entry, hentry, rfl⟩
    have hnone := any_eq_false.mp hplain _ hmem
    exact Bool.eq_false_iff.mpr hnone
  · intro _
    obtain ⟨entries, hentries, -⟩ := h.config (Bool.or_true _)
    rw [h.profiles (Bool.or_true _), hentries]
    exact ⟨Option.some_ne_none _, Option.some_ne_none _⟩

/-- A body that matches a schema uses exactly the names of the schema's struct. -/
theorem exactFields_of_shape {β : Type} {platform : Platform β} {fields : List (String × Json)}
    {schema : FieldSchema} {label : String} {names : List String}
    (hnames : schema.map Prod.fst = names) (hdistinct : (fields.map Prod.fst).Nodup)
    (hshape : fieldsProblem platform fields schema label = none) : exactFields names fields = true := by
  rw [exactFields, Bool.and_eq_true, decide_eq_true_eq, all_eq_true]
  refine ⟨fun entry hentry => ?_, hdistinct⟩
  simp only [fieldsProblem, List.findSome?_eq_none_iff] at hshape
  have hproblem := hshape entry hentry
  unfold fieldProblem at hproblem
  cases hcheck : schema.lookup entry.1 with
  | none => simp [hcheck] at hproblem
  | some check =>
    rw [contains_iff_mem, ← hnames]
    exact mem_map.mpr ⟨_, AssocList.mem_of_lookup hcheck, rfl⟩

/-- Only the keys of a body decide whether Incus takes it as it is written. -/
theorem exactFields_congr {names : List String} {fields fields' : List (String × Json)}
    (h : fields.map Prod.fst = fields'.map Prod.fst) : exactFields names fields = exactFields names fields' := by
  have hall : ∀ fields : List (String × Json), (fields.all fun entry => names.contains entry.1) =
      (fields.map Prod.fst).all names.contains := by
    intro fields
    rw [all_map]
    rfl
  rw [exactFields, exactFields, hall, hall, h]

end Nyabase.Agent
