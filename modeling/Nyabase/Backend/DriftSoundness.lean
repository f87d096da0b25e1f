import Nyabase.Lib.AssocList
import Nyabase.Backend.CpuText

/-!
# A document without drift means what is desired

`compareManagedFields` compares normalised texts.  Where it finds no difference, what Incus reads in the
actual document is what the desired one asks for: the same bytes of memory, the same pinned CPUs, the same
other values, the same devices and no profiles.  A set of one CPU is the exception: its range `n-n` and the
bare number `n`, which is a count for Incus, have one normal form.
-/

namespace Nyabase.Backend

open Common Lib List String

/-! ## Memory -/

theorem toString_inj {m n : Nat} (h : toString m = toString n) : m = n := by
  rw [← (plain_toString m).2, h, (plain_toString n).2]

theorem takeWhile_plain {text : List Char} (h : isPlainDigits text = true) :
    text.takeWhile isDigit = text ∧ text.dropWhile isDigit = [] := by
  have hdigits := (isPlainDigits_iff.mp h).2
  exact ⟨takeWhile_eq_self_iff.mpr hdigits, dropWhile_eq_nil_iff.mpr hdigits⟩

variable {text wanted key : String} {bytes : Nat}

theorem parseMemoryBytes_of_plain (h : isPlainDigits (trim text) = true) :
    parseMemoryBytes text = some (toString (decimalValue (trim text))) := by
  obtain ⟨htake, hdrop⟩ := takeWhile_plain h
  simp only [parseMemoryBytes, htake, hdrop, List.isEmpty_iff, (isPlainDigits_iff.mp h).1]
  simp

theorem digit_not_blank {c : Char} (h : isDigit c = true) : isJsWhitespace c = false := by
  have hcpu : isCpuChar c = true := by simp [isCpuChar, h]
  exact (isCpuChar_plain hcpu).1

theorem trim_of_plain (h : isPlainDigits text.toList = true) : trim text = text.toList :=
  trimBy_eq_self fun c hc => digit_not_blank ((isPlainDigits_iff.mp h).2 c hc)

/-- Incus and the platform agree on the units both know. -/
theorem memoryUnits_of_byteUnits {unit : String} (h : byteUnits.lookup unit = some bytes) :
    (∀ c ∈ unit.toList, isJsWhitespace c = false) ∧ if unit.toList.isEmpty then bytes = 1
      else ∀ known ∈ memoryUnits.lookup (ofList (lower unit.toList)), known = bytes := by
  have hall : ∀ entry ∈ byteUnits, entry.1.toList.any isJsWhitespace = false ∧
      if entry.1.toList.isEmpty then entry.2 = 1
      else ∀ known ∈ memoryUnits.lookup (ofList (lower entry.1.toList)), known = entry.2 := by
    decide +kernel
  obtain ⟨hblank, hagree⟩ := hall (unit, bytes) (AssocList.mem_of_lookup h)
  exact ⟨fun c hc => Bool.eq_false_iff.mpr (any_eq_false.mp hblank c hc), hagree⟩

/-- A size Incus reads: digits and a unit, without blanks. -/
theorem incusBytes_eq_some (h : incusBytes text = some bytes) :
    text.toList.takeWhile isDigit ≠ [] ∧ trim text = text.toList ∧
      ∃ unit, byteUnits.lookup (ofList (text.toList.dropWhile isDigit)) = some unit ∧
        bytes = decimalValue (text.toList.takeWhile isDigit) * unit := by
  simp only [incusBytes] at h
  split at h
  · cases h
  next hdigits =>
  obtain ⟨unit, hunit, rfl⟩ := Option.map_eq_some_iff.mp h
  have hblank := (memoryUnits_of_byteUnits hunit).1
  rw [toList_ofList] at hblank
  have htrim : trim text = text.toList := by
    apply trimBy_eq_self
    intro c hc
    rw [← (takeWhile_append_dropWhile : text.toList.takeWhile isDigit ++ _ = _)] at hc
    rcases mem_append.mp hc with hdigit | hunitChar
    · exact digit_not_blank (mem_takeWhile_imp hdigit)
    · exact hblank c hunitChar
  exact ⟨by simpa using hdigits, htrim, unit, hunit, rfl⟩

/-- A size that both read is the same for both. -/
theorem parseMemoryBytes_of_incusBytes {normal : String} (hbytes : incusBytes text = some bytes)
    (hparse : parseMemoryBytes text = some normal) : normal = toString bytes := by
  obtain ⟨hdigits, htrim, unit, hunit, rfl⟩ := incusBytes_eq_some hbytes
  obtain ⟨hblank, hagree⟩ := memoryUnits_of_byteUnits hunit
  rw [toList_ofList] at hblank hagree
  have hdrop : (text.toList.dropWhile isDigit).dropWhile isJsWhitespace = text.toList.dropWhile isDigit := by
    rw [dropWhile_eq_self_iff]
    intro hlength
    simp [hblank _ (getElem_mem hlength)]
  simp only [parseMemoryBytes, htrim, hdrop, List.isEmpty_iff, hdigits, if_false] at hparse
  obtain ⟨multiplier, hmultiplier, rfl⟩ := Option.map_eq_some_iff.mp hparse
  by_cases hempty : text.toList.dropWhile isDigit = []
  · simp only [hempty, if_true, isEmpty_nil] at hmultiplier hagree
    rw [← Option.some.inj hmultiplier, hagree]
  · simp only [hempty, if_false, List.isEmpty_iff] at hmultiplier hagree
    rw [hagree multiplier hmultiplier]

theorem memory_sound (hwanted : isPlainDigits wanted.toList = true)
    (hsame : normalizeManagedValue "limits.memory" (some text) = normalizeManagedValue "limits.memory" (some wanted))
    (hbytes : incusBytes text = some bytes) : bytes = decimalValue wanted.toList := by
  have hwantedTrim := trim_of_plain hwanted
  have hwantedParse := parseMemoryBytes_of_plain (hwantedTrim.symm ▸ hwanted)
  have hnormal : (parseMemoryBytes text).getD (ofList (trim text)) = toString (decimalValue wanted.toList) := by
    have hboth : (parseMemoryBytes text).getD (ofList (trim text)) =
        (parseMemoryBytes wanted).getD (ofList (trim wanted)) := Option.some.inj hsame
    rw [hwantedParse, hwantedTrim] at hboth
    exact hboth
  cases hparse : parseMemoryBytes text with
  | none =>
    -- digits alone are always parsed
    rw [hparse, Option.getD_none] at hnormal
    have hplain : isPlainDigits (trim text) = true := by
      rw [← (toList_ofList : (ofList (trim text)).toList = trim text), hnormal]
      exact (plain_toString _).1
    rw [parseMemoryBytes_of_plain hplain] at hparse
    cases hparse
  | some normal =>
    rw [hparse, Option.getD_some, parseMemoryBytes_of_incusBytes hbytes hparse] at hnormal
    exact toString_inj hnormal

/-! ## CPUs -/

/-- Two CPUs are not a count: where the normal forms agree, both texts list the same CPUs. -/
theorem cpu_sound {cpus : List Nat} {limit : CpuLimit} (htwo : ∃ first ∈ cpus, ∃ second ∈ cpus, first ≠ second)
    (hwanted : formatCpuSet cpus = .ok wanted)
    (hsame : normalizeManagedValue "limits.cpu" (some text) = normalizeManagedValue "limits.cpu" (some wanted))
    (hlimit : incusCpuLimit text = some limit) :
    ∃ pinned, limit = .pinned pinned ∧ ∀ cpu, cpu ∈ pinned ↔ cpu ∈ cpus := by
  have hnormal : normalizedCpu text = normalizedCpu wanted := Option.some.inj hsame
  obtain ⟨wantedList, hwantedList, hwantedMem⟩ := incusCpuList_formatCpuSet hwanted
  obtain ⟨normalList, hnormalList, hnormalMem⟩ := incusCpuList_normalizedCpu hwantedList
  have hread : ∀ listed, incusCpuList text.toList = some listed → ∀ cpu, cpu ∈ listed ↔ cpu ∈ cpus := by
    intro listed hlisted cpu
    obtain ⟨actualList, hactualList, hactualMem⟩ := incusCpuList_normalizedCpu hlisted
    rw [hnormal, hnormalList] at hactualList
    rw [← hactualMem, ← Option.some.inj hactualList, hnormalMem, hwantedMem]
  unfold incusCpuLimit at hlimit
  split at hlimit
  · next hplain =>
    exfalso
    obtain ⟨first, hfirst, second, hsecond, hne⟩ := htwo
    have hsingle := hread _ (incusCpuList_number hplain)
    have h1 := mem_singleton.mp ((hsingle first).mpr hfirst)
    have h2 := mem_singleton.mp ((hsingle second).mpr hsecond)
    omega
  · obtain ⟨listed, hlisted, rfl⟩ := Option.map_eq_some_iff.mp hlimit
    exact ⟨listed, rfl, hread listed hlisted⟩

/-! ## Maps -/

theorem not_mem_bothKeys {α β : Type} {left : List (String × α)} {right : List (String × β)}
    (h : key ∉ bothKeys left right) : left.lookup key = none ∧ right.lookup key = none := by
  simp only [bothKeys, mem_dedup, mem_append, mem_map, not_or, not_exists, not_and] at h
  simp only [lookup_eq_none_iff, bne_iff_ne]
  exact ⟨fun entry hentry heq => h.1 entry hentry heq.symm, fun entry hentry heq => h.2 entry hentry heq.symm⟩

/-- No difference in the config means that the normal forms of every managed key are the same. -/
theorem compareConfig_eq_nil {actual desired : StringMap} : compareConfig actual desired = [] ↔
    ∀ key, isManagedConfigKey key = true →
      normalizeManagedValue key (actual.lookup key) = normalizeManagedValue key (desired.lookup key) := by
  simp only [compareConfig, filter_eq_nil_iff, mem_filter, bne_iff_ne, not_not]
  constructor
  · intro h key hkey
    by_cases hmem : key ∈ bothKeys actual desired
    · exact h key ⟨hmem, hkey⟩
    · rw [(not_mem_bothKeys hmem).1, (not_mem_bothKeys hmem).2]
  · exact fun h key hkey => h key hkey.2

/-- Two devices, each there or not, with the same values. -/
def SameDevice : Option StringMap → Option StringMap → Prop
  | none, none => True
  | some left, some right => ∀ key, left.lookup key = right.lookup key
  | _, _ => False

theorem compareDevices_eq_nil {actual desired : DeviceMap} (h : compareDevices actual desired = [])
    (name : String) : SameDevice (actual.lookup name) (desired.lookup name) := by
  by_cases hmem : name ∈ bothKeys actual desired
  · have hfilter := filter_eq_nil_iff.mp h name hmem
    split at hfilter
    · next left right hleft hright =>
      rw [hleft, hright]
      have hmatches : deviceMatches left right = true := by simpa using hfilter
      intro key
      by_cases hkey : key ∈ bothKeys left right
      · exact eq_of_beq (all_eq_true.mp hmatches key hkey)
      · rw [(not_mem_bothKeys hkey).1, (not_mem_bothKeys hkey).2]
    · exact absurd rfl hfilter
  · rw [(not_mem_bothKeys hmem).1, (not_mem_bothKeys hmem).2]
    trivial

theorem compareDevices_self (devices : DeviceMap) : compareDevices devices devices = [] := by
  rw [compareDevices, filter_eq_nil_iff]
  intro name hname
  cases hlookup : devices.lookup name with
  | none =>
    simp [bothKeys] at hname
    grind
  | some device => simp [deviceMatches]

/-! ## Documents with the desired devices -/

variable {sha256Hex : String → String} {container : InstanceSpecContainer} {server : InstanceSpecServer}
  {attachments : List InstanceSpecAttachment} {limits : ContainerRuntimeLimits} {base desired : DesiredInstanceSpec}
  {contributions : List InstanceSpecContribution}

/-- The managed interface of a container's document is a valid one. -/
theorem buildDesiredInstanceSpec_eth0
    (h : buildDesiredInstanceSpec sha256Hex container server attachments limits = .ok base) :
    ∃ eth0, base.devices.lookup "eth0" = some eth0 ∧
      ∀ devices : DeviceMap, devices.lookup "eth0" = some eth0 → ∀ side, validateEth0 devices side = none := by
  obtain ⟨containerId, -, h⟩ := bind_eq_ok.mp h
  obtain ⟨serverId, -, h⟩ := bind_eq_ok.mp h
  split at h
  · cases h
  iterate 4 obtain ⟨_, -, h⟩ := bind_eq_ok.mp h
  obtain ⟨parent, hparent, h⟩ := bind_eq_ok.mp h
  obtain ⟨address, haddress, h⟩ := bind_eq_ok.mp h
  iterate 4 obtain ⟨_, -, h⟩ := bind_eq_ok.mp h
  obtain ⟨nic, hnic, h⟩ := bind_eq_ok.mp h
  iterate 4 obtain ⟨_, -, h⟩ := bind_eq_ok.mp h
  obtain rfl := Except.ok.inj h
  obtain ⟨hwaddr, hhwaddr, hnic⟩ := bind_eq_ok.mp hnic
  obtain ⟨hostName, -, hnic⟩ := bind_eq_ok.mp hnic
  obtain rfl := Except.ok.inj hnic
  refine ⟨_, rfl, fun devices hlookup side => ?_⟩
  have hparent : parent ≠ "" := by
    unfold validateName at hparent
    split at hparent
    · rename_i hname
      obtain rfl := Except.ok.inj hparent
      simpa using (Bool.and_eq_true _ _ |>.mp hname).1
    · cases hparent
  have haddress : isIpv4 address.toList = true := by
    unfold validateIpv4 at haddress
    split at haddress
    · obtain rfl := Except.ok.inj haddress
      assumption
    · cases haddress
  have hhwaddr : hwaddr ≠ "" := by
    obtain ⟨text, -, hhwaddr⟩ := bind_eq_ok.mp hhwaddr
    obtain rfl := Except.ok.inj hhwaddr
    intro hempty
    have := congrArg toList hempty
    simp [hexByte] at this
  unfold validateEth0
  rw [hlookup]
  simp [lookup_cons, hparent, haddress, hhwaddr]

/-- A document with the desired devices and no profiles differs at most in its config. -/
theorem compareManagedFields_config
    (hbuild : buildDesiredInstanceSpec sha256Hex container server attachments limits = .ok base)
    (hmerge : mergeInstanceSpecContributions base contributions = .ok desired) {config : StringMap}
    (hconfig : compareConfig config desired.config = []) :
    compareManagedFields ⟨config, desired.devices, []⟩ desired = .ok ⟨[], [], false⟩ := by
  obtain ⟨eth0, heth0, hvalid⟩ := buildDesiredInstanceSpec_eth0 hbuild
  have hnic := hvalid desired.devices ((lookup_mergeInstanceSpecContributions hmerge).2 _ _ heth0)
  simp only [compareManagedFields, hnic, hconfig, compareDevices_self]
  rfl

/-! ## The comparison -/

/-- The actual document means to Incus what the container's document asks for.  A value Incus refuses is in
no document of Incus, so it means nothing. -/
structure MeansDesired (container : InstanceSpecContainer) (desired : DesiredInstanceSpec)
    (actual : ManagedInstanceDocument) : Prop where
  memory : ∃ text, actual.config.lookup "limits.memory" = some text ∧
    ∀ bytes, incusBytes text = some bytes → bytes = decimalValue container.memBytes.toList
  cpus : ∃ text, actual.config.lookup "limits.cpu" = some text ∧ ∀ limit, incusCpuLimit text = some limit →
      ∃ pinned, limit = .pinned pinned ∧ ∀ cpu, cpu ∈ pinned ↔ cpu ∈ container.cpus
  config : ∀ key, isManagedConfigKey key = true → key ≠ "limits.memory" → key ≠ "limits.cpu" →
    actual.config.lookup key = desired.config.lookup key
  devices : ∀ name, SameDevice (actual.devices.lookup name) (desired.devices.lookup name)
  profiles : actual.profiles = []

theorem normalizeManagedValue_some {value : Option String}
    (h : normalizeManagedValue key value = normalizeManagedValue key (some wanted)) : ∃ text, value = some text := by
  cases value with
  | none => cases h
  | some text => exact ⟨text, rfl⟩

def withLimit (cpu memory key value : String) : String :=
  if key == "limits.cpu" then cpu else if key == "limits.memory" then memory else value

/-- The document as it is desired, but with these limits. -/
def withLimits (desired : DesiredInstanceSpec) (cpu memory : String) : ManagedInstanceDocument where
  config := desired.config.map fun entry => (entry.1, withLimit cpu memory entry.1 entry.2)
  devices := desired.devices
  profiles := []

section

variable (hbuild : buildDesiredInstanceSpec sha256Hex container server attachments limits = .ok base)
  (hmerge : mergeInstanceSpecContributions base contributions = .ok desired)

include hbuild hmerge

/-- Where a container has two CPUs or more, a comparison without a difference is right. -/
theorem means_desired_of_two (htwo : ∃ first ∈ container.cpus, ∃ second ∈ container.cpus, first ≠ second)
    {actual : ManagedInstanceDocument} {diff : ManagedFieldsDiff}
    (hcompare : compareManagedFields actual desired = .ok diff) (hempty : diff.empty = true) :
    MeansDesired container desired actual := by
  have hlimits := buildDesiredInstanceSpec_saysLimits hbuild
  have hkept := (lookup_mergeInstanceSpecContributions hmerge).1
  unfold compareManagedFields at hcompare
  split at hcompare
  · cases hcompare
  split at hcompare
  · cases hcompare
  obtain rfl := Except.ok.inj hcompare
  simp only [ManagedFieldsDiff.empty, Bool.and_eq_true, Bool.not_not, List.isEmpty_iff] at hempty
  obtain ⟨⟨hconfig, hdevices⟩, hprofiles⟩ := hempty
  rw [compareConfig_eq_nil] at hconfig
  constructor
  case memory =>
    have hsame := hconfig "limits.memory" (by decide)
    rw [hkept _ _ hlimits.memory] at hsame
    obtain ⟨text, htext⟩ := normalizeManagedValue_some hsame
    rw [htext] at hsame
    exact ⟨text, htext, fun bytes hbytes => memory_sound hlimits.memoryDigits hsame hbytes⟩
  case cpus =>
    obtain ⟨wanted, hwanted, hlookup⟩ := hlimits.cpu
    have hsame := hconfig "limits.cpu" (by decide)
    rw [hkept _ _ hlookup] at hsame
    obtain ⟨text, htext⟩ := normalizeManagedValue_some hsame
    rw [htext] at hsame
    exact ⟨text, htext, fun limit hlimit => cpu_sound htwo hwanted hsame hlimit⟩
  case config =>
    intro key hkey hmemory hcpu
    have hsame := hconfig key hkey
    simpa [normalizeManagedValue, hmemory, hcpu] using hsame
  case devices => exact compareDevices_eq_nil hdevices
  case profiles => exact hprofiles

/-- Where a container has one CPU, the document that gives it as many CPUs as that one's number is not reported. -/
theorem count_unreported (hone : ∀ first ∈ container.cpus, ∀ second ∈ container.cpus, first = second) :
    ∃ actual, compareManagedFields actual desired = .ok ⟨[], [], false⟩ ∧ ¬ MeansDesired container desired actual := by
  have hlimits := buildDesiredInstanceSpec_saysLimits hbuild
  have hkept := (lookup_mergeInstanceSpecContributions hmerge).1
  obtain ⟨wanted, hwanted, hlookup⟩ := hlimits.cpu
  obtain ⟨n, hsafe, rfl⟩ := formatCpuSet_single hwanted hone
  have hvalue := AssocList.lookup_map (withLimit (toString n) container.memBytes) desired.config
  refine ⟨withLimits desired (toString n) container.memBytes, ?_, fun hmeans => ?_⟩
  · refine compareManagedFields_config hbuild hmerge (compareConfig_eq_nil.mpr fun key _ => ?_)
    rw [hvalue]
    by_cases hcpu : key = "limits.cpu"
    · subst hcpu
      rw [hkept _ _ hlookup]
      exact congrArg some ((normalizedCpu_number n).trans (normalizedCpu_single hsafe).symm)
    · by_cases hmemory : key = "limits.memory"
      · subst hmemory
        rw [hkept _ _ hlimits.memory]
        rfl
      · cases hdesired : desired.config.lookup key <;> simp [withLimit, hcpu, hmemory]
  · obtain ⟨text, htext, hpinned⟩ := hmeans.cpus
    obtain rfl : toString n = text :=
      Option.some.inj (((hvalue _).trans (by rw [hkept _ _ hlookup]; rfl)).symm.trans htext)
    have hcount : incusCpuLimit (toString n) = some (.count _) := if_pos (plain_toString n).1
    obtain ⟨pinned, hlimit, -⟩ := hpinned _ hcount
    cases hlimit

/-- A comparison without a difference is right for every actual document, exactly when the container has two different
CPUs. -/
theorem no_difference_means_desired :
    (∀ actual diff, compareManagedFields actual desired = .ok diff → diff.empty = true →
        MeansDesired container desired actual) ↔
      ∃ first ∈ container.cpus, ∃ second ∈ container.cpus, first ≠ second := by
  constructor
  · intro hsound
    by_contra hone
    push Not at hone
    obtain ⟨actual, hcompare, hmeans⟩ := count_unreported hbuild hmerge hone
    exact hmeans (hsound actual _ hcompare rfl)
  · exact fun htwo actual diff => means_desired_of_two hbuild hmerge htwo

end

/-! ## One container -/

def boxContainer (cpus : List Nat) : InstanceSpecContainer where
  id := "11111111-1111-4111-8111-111111111111"
  name := "box"
  serverId := "22222222-2222-4222-8222-222222222222"
  revision := 3
  imageFingerprint := "aaaaaaaaaaaaaaaaaaaaaaaaaaaaaaaaaaaaaaaaaaaaaaaaaaaaaaaaaaaaaaaa"
  cpus := cpus
  memBytes := "1000000000"
  nesting := true
  syscallIntercept := false
  rootPool := "pool"
  rootSizeBytes := "5000000000"
  routedIp := "10.0.0.7"

def boxSpec (cpus : List Nat) : Except StepError DesiredInstanceSpec :=
  buildDesiredInstanceSpec (fun _ => "0123456789abcdef") (boxContainer cpus)
    { id := "22222222-2222-4222-8222-222222222222", name := "host", parentInterface := "br0" } []
    { processes := 512, networkIngressMbit := 100, networkEgressMbit := 100, diskReadMBps := 50,
      diskWriteMBps := 50 }

/-- Nothing is reported for the container's document with these limits. -/
def unreported (cpus : List Nat) (cpu memory : String) : Bool :=
  match boxSpec cpus with
  | .ok desired =>
    match compareManagedFields (withLimits desired cpu memory) desired with
    | .ok diff => diff.empty
    | .error _ => false
  | .error _ => false

theorem unreported_eq_true {cpus : List Nat} {cpu memory : String} (h : unreported cpus cpu memory = true) :
    ∃ desired diff, boxSpec cpus = .ok desired ∧
      compareManagedFields (withLimits desired cpu memory) desired = .ok diff ∧ diff.empty = true := by
  revert h
  fun_cases unreported cpus cpu memory with
  | case1 desired hdesired diff hdiff => exact fun h => ⟨desired, diff, hdesired, hdiff, h⟩
  | case2 | case3 => nofun

/-- Three CPUs and the memory, written in another way than the platform's. -/
theorem threeCpus_means_desired :
    ∃ desired, boxSpec [0, 1, 3] = .ok desired ∧ incusCpuLimit "0,1,3" = some (.pinned [0, 1, 3]) ∧
      incusBytes "1GB" = some 1000000000 ∧
      MeansDesired (boxContainer [0, 1, 3]) desired (withLimits desired "0,1,3" "1GB") := by
  have hunreported : unreported [0, 1, 3] "0,1,3" "1GB" = true := by decide +kernel
  obtain ⟨desired, diff, hdesired, hdiff, hempty⟩ := unreported_eq_true hunreported
  have hmerge : mergeInstanceSpecContributions desired [] = .ok desired := rfl
  have hsound := (no_difference_means_desired hdesired hmerge).mpr ⟨0, by decide, 1, by decide, by decide⟩
  exact ⟨desired, hdesired, by decide +kernel, by decide +kernel, hsound _ _ hdiff hempty⟩

/-- A container pinned to CPU 3 whose instance has any three CPUs: nothing is reported. -/
theorem single_cpu_count_unreported : ∃ desired diff, boxSpec [3] = .ok desired ∧
      compareManagedFields (withLimits desired "3" "1000000000") desired = .ok diff ∧ diff.empty = true ∧
      desired.config.lookup "limits.cpu" = some "3-3" ∧ incusCpuLimit "3-3" = some (.pinned [3]) ∧
      incusCpuLimit "3" = some (.count 3) ∧
      ¬ MeansDesired (boxContainer [3]) desired (withLimits desired "3" "1000000000") := by
  have hunreported : unreported [3] "3" "1000000000" = true := by decide +kernel
  obtain ⟨desired, diff, hdesired, hdiff, hempty⟩ := unreported_eq_true hunreported
  obtain ⟨wanted, hwanted, hlookup⟩ := (buildDesiredInstanceSpec_saysLimits hdesired).cpu
  have hformat : formatCpuSet (boxContainer [3]).cpus = .ok "3-3" := rfl
  obtain rfl : "3-3" = wanted := Except.ok.inj (hformat.symm.trans hwanted)
  have hcount : incusCpuLimit "3" = some (.count 3) := by decide +kernel
  refine ⟨desired, diff, hdesired, hdiff, hempty, hlookup, by decide +kernel, hcount, ?_⟩
  intro hmeans
  obtain ⟨text, htext, hpinned⟩ := hmeans.cpus
  have hthree : (withLimits desired "3" "1000000000").config.lookup "limits.cpu" = some "3" := by
    show lookup _ (desired.config.map _) = _
    rw [AssocList.lookup_map (withLimit "3" "1000000000"), hlookup]
    rfl
  obtain rfl : "3" = text := Option.some.inj (hthree.symm.trans htext)
  obtain ⟨pinned, hlimit, -⟩ := hpinned _ hcount
  cases hlimit

/-! ## Writing the desired document -/

theorem compareConfig_applied (actual desired : StringMap) :
    compareConfig ((actual.filter fun entry => !isManagedConfigKey entry.1) ++
      desired.filter fun entry => isManagedConfigKey entry.1) desired = [] := by
  refine compareConfig_eq_nil.mpr fun key hmanaged => ?_
  have hown := AssocList.lookup_filter_key (fun key => !isManagedConfigKey key) actual key
  have hwanted := AssocList.lookup_filter_key isManagedConfigKey desired key
  simp [lookup_append, hown, hwanted, hmanaged]

/-- The document a write leaves behind shows no difference and is what another write leaves behind; of the actual
document it keeps the config that Incus owns. -/
theorem managed_writes_converge
    (hbuild : buildDesiredInstanceSpec sha256Hex container server attachments limits = .ok base)
    (hmerge : mergeInstanceSpecContributions base contributions = .ok desired) (actual : ManagedInstanceDocument) :
    compareManagedFields (applyManagedFields actual desired) desired = .ok ⟨[], [], false⟩ ∧
    (∃ kept managed, (applyManagedFields actual desired).config = kept ++ managed ∧
      kept = actual.config.filter (fun entry => !isManagedConfigKey entry.1) ∧
      managed = desired.config.filter fun entry => isManagedConfigKey entry.1) ∧
    (applyManagedFields actual desired).devices = desired.devices ∧
    (applyManagedFields actual desired).profiles = [] ∧
    applyManagedFields (applyManagedFields actual desired) desired = applyManagedFields actual desired := by
  refine ⟨?_, ⟨_, _, rfl, rfl, rfl⟩, rfl, rfl, ?_⟩
  · exact compareManagedFields_config hbuild hmerge (compareConfig_applied _ _)
  · simp [applyManagedFields]

theorem box_writes_converge : ∃ desired, boxSpec [0, 1] = .ok desired ∧
    compareManagedFields (applyManagedFields (withLimits desired "3" "1GB") desired) desired = .ok ⟨[], [], false⟩ := by
  obtain ⟨desired, -, hdesired, -⟩ := unreported_eq_true (show unreported [0, 1] "0-1" "1GB" = true by decide +kernel)
  have hmerge : mergeInstanceSpecContributions desired [] = .ok desired := rfl
  exact ⟨desired, hdesired, (managed_writes_converge hdesired hmerge _).1⟩

end Nyabase.Backend
