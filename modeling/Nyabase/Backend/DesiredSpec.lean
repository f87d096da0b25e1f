import Nyabase.Backend.InstanceOps

/-!
# What the desired document says

The fields of the document `buildDesiredInstanceSpec` builds that other results read, and the byte sizes
Incus reads in such a document.  Contributions only add to a document, so what it says stays.
-/

namespace Nyabase.Backend

open Common Lib

/-! ## Byte sizes -/

/-- The units Incus reads a byte size with. -/
def byteUnits : List (String × Nat) :=
  [("", 1), ("B", 1), ("kB", 1000), ("MB", 1000 ^ 2), ("GB", 1000 ^ 3), ("TB", 1000 ^ 4),
    ("PB", 1000 ^ 5), ("EB", 1000 ^ 6), ("KiB", 1024), ("MiB", 1024 ^ 2), ("GiB", 1024 ^ 3),
    ("TiB", 1024 ^ 4), ("PiB", 1024 ^ 5), ("EiB", 1024 ^ 6)]

/-- The bytes a size means to Incus. -/
def incusBytes (size : String) : Option Nat :=
  let digits := size.toList.takeWhile isDigit
  if digits.isEmpty then none
  else
    (byteUnits.lookup (String.ofList (size.toList.dropWhile isDigit))).map fun unit =>
      decimalValue digits * unit

/-! ## Contributions -/

theorem lookup_addEntries {α : Type} {what key : String} {present entries all : List (String × α)}
    {value : α} (h : addEntries what present entries = .ok all) (hkey : present.lookup key = some value) :
    all.lookup key = some value := by
  induction entries generalizing present with
  | nil =>
    obtain rfl := Except.ok.inj h
    exact hkey
  | cons entry entries ih =>
    unfold addEntries at h
    split at h
    · cases h
    · refine ih h ?_
      rw [List.lookup_append, hkey, Option.some_or]

/-- What a document says is still said after the contributions. -/
theorem lookup_mergeInstanceSpecContributions {base desired : DesiredInstanceSpec}
    {contributions : List InstanceSpecContribution}
    (h : mergeInstanceSpecContributions base contributions = .ok desired) :
    (∀ key value, base.config.lookup key = some value → desired.config.lookup key = some value) ∧
      ∀ name device, base.devices.lookup name = some device → desired.devices.lookup name = some device := by
  induction contributions generalizing base with
  | nil =>
    obtain rfl := Except.ok.inj h
    exact ⟨fun _ _ hkey => hkey, fun _ _ hname => hname⟩
  | cons contribution contributions ih =>
    obtain ⟨config, hconfig, h⟩ := bind_eq_ok.mp h
    obtain ⟨devices, hdevices, h⟩ := bind_eq_ok.mp h
    have hrest := ih h
    constructor
    · intro key value hkey
      exact hrest.1 key value (lookup_addEntries hconfig hkey)
    · intro name device hname
      exact hrest.2 name device (lookup_addEntries hdevices hname)

/-! ## The fields of the document -/

theorem positiveInteger_ok {value text label : String} {code : IncusFailureCode}
    (h : positiveInteger value code label = .ok text) : text = value ∧ isPlainDigits value.toList = true := by
  unfold positiveInteger at h
  split at h
  · next hdigits =>
    simp only [Bool.and_eq_true] at hdigits
    exact ⟨(Except.ok.inj h).symm, Bool.and_eq_true_iff.mpr hdigits.1⟩
  · cases h

/-- The root size, the memory and the CPUs of a container, as they stand in its document. -/
structure SaysLimits (container : InstanceSpecContainer) (spec : DesiredInstanceSpec) : Prop where
  rootDigits : isPlainDigits container.rootSizeBytes.toList = true
  root : ∃ root, spec.devices.lookup "root" = some root ∧ root.lookup "size" = some container.rootSizeBytes
  memoryDigits : isPlainDigits container.memBytes.toList = true
  memory : spec.config.lookup "limits.memory" = some container.memBytes
  cpu : ∃ cpus, formatCpuSet container.cpus = .ok cpus ∧ spec.config.lookup "limits.cpu" = some cpus

theorem buildDesiredInstanceSpec_saysLimits {sha256Hex : String → String} {container : InstanceSpecContainer}
    {server : InstanceSpecServer} {attachments : List InstanceSpecAttachment} {limits : ContainerRuntimeLimits}
    {spec : DesiredInstanceSpec}
    (h : buildDesiredInstanceSpec sha256Hex container server attachments limits = .ok spec) :
    SaysLimits container spec := by
  obtain ⟨containerId, -, h⟩ := bind_eq_ok.mp h
  obtain ⟨serverId, -, h⟩ := bind_eq_ok.mp h
  split at h
  · cases h
  obtain ⟨revision, -, h⟩ := bind_eq_ok.mp h
  obtain ⟨size, hsize, h⟩ := bind_eq_ok.mp h
  obtain ⟨memory, hmemory, h⟩ := bind_eq_ok.mp h
  obtain ⟨rfl, hsizeDigits⟩ := positiveInteger_ok hsize
  obtain ⟨rfl, hmemoryDigits⟩ := positiveInteger_ok hmemory
  iterate 3 obtain ⟨_, -, h⟩ := bind_eq_ok.mp h
  obtain ⟨cpus, hcpus, h⟩ := bind_eq_ok.mp h
  -- The fields checked from here on are no limits of the container.
  iterate 8 obtain ⟨_, -, h⟩ := bind_eq_ok.mp h
  obtain rfl := Except.ok.inj h
  exact {
    rootDigits := hsizeDigits
    root := ⟨_, rfl, rfl⟩
    memoryDigits := hmemoryDigits
    memory := rfl
    cpu := ⟨cpus, hcpus, rfl⟩ }

end Nyabase.Backend
