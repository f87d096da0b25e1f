import Nyabase.Lib.AssocList
import Nyabase.Lib.Rows
import Nyabase.Backend.DesiredSpec
import Nyabase.Backend.ReconcileFootprint

/-!
# A root disk is not shrunk below its data

Incus writes a root size as plain digits or with a byte unit; the guard of the reconciler reads plain digits
only.  A write of a pass that lowers the root size is judged by what the pass has read: on a pool that
resizes online the usage must be known and fit, on a block-backed pool the instance must be stopped and a
known usage must fit.
-/

namespace Nyabase.Backend

open Common Lib Option Program

/-! ## Sizes -/

/-- The size of the root device, as it is written. -/
def rootSize (devices : DeviceMap) : Option String :=
  (devices.lookup "root").bind fun root => root.lookup "size"

/-- The root size, if there is one, is written in plain digits. -/
def plainRoot (devices : DeviceMap) : Bool :=
  (rootSize devices).elim true fun size => isPlainDigits size.toList

theorem incusBytes_of_plain {size : String} (h : isPlainDigits size.toList = true) :
    incusBytes size = some (decimalValue size.toList) := by
  simp only [isPlainDigits, Bool.and_eq_true, Bool.not_eq_true'] at h
  have htake : size.toList.takeWhile isDigit = size.toList := List.takeWhile_eq_self_iff.mpr (List.all_eq_true.mp h.2)
  have hdrop : size.toList.dropWhile isDigit = [] := List.dropWhile_eq_nil_iff.mpr (List.all_eq_true.mp h.2)
  simp only [incusBytes, htake, hdrop, h.1]
  simp [byteUnits]

/-- Where the size is plain digits, the guard reads what Incus means. -/
theorem rootBytes_of_plain {devices : DeviceMap} (h : plainRoot devices = true) :
    rootBytes devices = (rootSize devices).bind incusBytes := by
  show (rootSize devices).bind (fun size => observedDiskUsageBytes (.text size)) = _
  rw [plainRoot] at h
  cases hsize : rootSize devices with
  | none => rfl
  | some size =>
    rw [hsize, elim_some] at h
    rw [bind_some, bind_some, incusBytes_of_plain h, observedDiskUsageBytes, if_pos h]

/-! ## The desired root -/

variable {desired : DesiredInstanceSpec} {used : Option Nat} {α : Type} {response : InstanceResponse}
  {state : InstanceState} {actual : ActualInstance}

/-- The document a row asks for has the row's root size, in plain digits. -/
theorem buildContainerSpec_root {sha256Hex : String → String} {attachments : List InstanceSpecAttachment}
    {runtime : ContainerSpecRuntime} (h : buildContainerSpec sha256Hex row attachments runtime = .ok desired) :
    plainRoot desired.devices = true := by
  obtain ⟨base, hbase, h⟩ := bind_eq_ok.mp h
  have hlimits := buildDesiredInstanceSpec_saysLimits hbase
  obtain ⟨root, hroot, hsize⟩ := hlimits.root
  have hdesired := (lookup_mergeInstanceSpecContributions h).2 "root" root hroot
  rw [plainRoot, rootSize, hdesired, bind_some, hsize, elim_some]
  exact hlimits.rootDigits

/-! ## What a pass has read -/

/-- The document of this name that an exchange shows. -/
def documentOf (name : String) : Exchange Call.Answer → Option InstanceFull
  | ⟨.getInstanceFull read, .ok response⟩ => if read == name then some response.document else none
  | ⟨.listInstances, .ok listed⟩ => listed.find? fun document => document.name == some name
  | _ => none

/-- The state of this instance that an exchange shows. -/
def stateOf (name : String) : Exchange Call.Answer → Option InstanceState
  | ⟨.getInstanceState read, .ok state⟩ => if read == name then some state else none
  | _ => none

/-- The usage of the instance volume that an exchange shows; a failed read shows none. -/
def volumeUsageOf : Exchange Call.Answer → Option Reading
  | ⟨.getStorageVolumeState _ _, .ok used⟩ => some used
  | ⟨.getStorageVolumeState _ _, .error _⟩ => some .none
  | _ => none

/-- The root size in the document read last. -/
def lastRoot (name : String) (history : History) : Option String :=
  (history.findSome? (documentOf name)).bind fun document => rootSize document.devices

/-- The state read last. -/
def lastState (name : String) (history : History) : Option InstanceState :=
  history.findSome? (stateOf name)

/-- A usage above zero, whatever its size. -/
def usageBytes : Reading → Option Nat
  | .number value => if 0 < value then some value.toNat else none
  | .text value =>
    if isPlainDigits value.toList && decide (0 < decimalValue value.toList) then
      some (decimalValue value.toList)
    else none
  | .none => none

/-- The usage a pass knows: of the state read last, or else of the volume. -/
def knownUsage (name : String) (history : History) : Option Nat :=
  ((lastState name history).bind fun state => usageBytes state.rootUsage).or
    ((history.findSome? volumeUsageOf).bind usageBytes)

/-- A root of this family may be lowered to `size`, by what the pass has read. -/
def shrinkSafe (family : ResizeFamily) (name : String) (history : History) (size : Nat) : Bool :=
  match family with
  | .quotaOnline => (knownUsage name history).elim false fun used => decide (used ≤ size)
  | .blockBacked =>
    ((lastState name history).elim false fun state => !running state) &&
      (knownUsage name history).elim true fun used => decide (used ≤ size)

/-- A write that lowers the root size of the document read last. -/
def lowersRoot (history : History) : Call → Option (String × Nat)
  | .updateInstance name document _ =>
    match (lastRoot name history).bind incusBytes, (rootSize document.devices).bind incusBytes with
    | some old, some new => if new < old then some (name, new) else none
    | _, _ => none
  | _ => none

/-- A call that lowers a root does so safely for the row of the pass. -/
def callSafe (history : History) (call : Call) : Bool :=
  (lowersRoot history call).elim true fun (name, size) =>
    (rowOf history).elim true fun row => shrinkSafe row.rootResizeFamily name history size

/-- The instances whose roots a pass lowered unsafely. -/
def unsafeShrinks : History → List Call
  | [] => []
  | exchange :: earlier =>
    [exchange.question].filter (fun call => !callSafe earlier call) ++ unsafeShrinks earlier

/-! ## What is assumed of the answers -/

/-- The root sizes an instance can have since it was last read: the one that was read, and those the pass
wrote.  `none` before the first read, and after an instance came under the name. -/
def rootsSince (name : String) : History → Option (List (Option String))
  | [] => none
  | exchange :: earlier =>
    match documentOf name exchange with
    | some document => some [rootSize document.devices]
    | none =>
      match exchange.question with
      | .updateInstance written document _ =>
        if written == name then (rootsSince name earlier).map (rootSize document.devices :: ·)
        else rootsSince name earlier
      | .renameInstance _ newName => if newName == name then none else rootsSince name earlier
      | .createInstance created _ => if created == name then none else rootsSince name earlier
      | _ => rootsSince name earlier

/-- A usage given as a number is a safe integer. -/
def safeReading : Reading → Bool
  | .number value => decide (value ≤ maxSafeInteger)
  | _ => true

/-- Root sizes are written in plain digits, nobody but the pass changes them, listed instances have
distinct names, and usages are safe integers. -/
def readable (earlier : History) : Exchange Call.Answer → Bool
  | ⟨.getInstanceFull name, .ok response⟩ =>
    plainRoot response.document.devices &&
      (rootsSince name earlier).elim true fun roots => roots.contains (rootSize response.document.devices)
  | ⟨.listInstances, .ok listed⟩ =>
    (listed.all fun document => document.name.isSome && plainRoot document.devices) &&
      decide (listed.map InstanceFull.name).Nodup
  | ⟨.getInstanceState _, .ok state⟩ => safeReading state.rootUsage
  | ⟨.getStorageVolumeState _ _, .ok used⟩ => safeReading used
  | _ => true

/-- Roots are lowered safely where sizes and usages can be read. -/
def shrinkGuard : Contract Call.Answer where
  answers earlier call answer := readable earlier ⟨call, answer⟩ = true
  asks history call := callSafe history call = true

instance (earlier : History) (call : Call) (answer : call.Answer) :
    Decidable (shrinkGuard.answers earlier call answer) :=
  inferInstanceAs (Decidable (_ = true))

/-! ## The readings of the guard -/

theorem usageBytes_of_safe {reading : Reading} (h : safeReading reading = true) :
    usageBytes reading = positiveUsage reading := by
  cases reading with
  | none => rfl
  | text value =>
    simp only [usageBytes, positiveUsage, observedDiskUsageBytes]
    by_cases hplain : isPlainDigits value.toList = true
    · simp [hplain, Option.filter]
    · simp [hplain]
  | number value =>
    have hsafe : value ≤ maxSafeInteger := of_decide_eq_true h
    simp only [usageBytes, positiveUsage, observedDiskUsageBytes]
    by_cases hpositive : 0 < value
    · have hrange : 0 ≤ value ∧ value ≤ maxSafeInteger := ⟨by omega, hsafe⟩
      rw [if_pos hpositive, if_pos hrange, filter_some, if_pos]
      exact decide_eq_true (by omega)
    rw [if_neg hpositive]
    split
    · rw [filter_some, if_neg]
      simp only [decide_eq_true_eq]
      omega
    · rfl

/-- A shrink the guard allows online: the usage is known, positive and fits. -/
theorem decideRootShrink_online {old new : Nat} {isRunning : Bool}
    (h : decideRootShrink .quotaOnline old new used isRunning = .allow) (hlower : new < old) :
    ∃ bytes, used = some bytes ∧ 0 < bytes ∧ bytes ≤ new := by
  rw [decideRootShrink, if_neg (by omega)] at h
  cases used with
  | none => simp at h
  | some bytes =>
    simp only [getD_some, elim_some, decide_eq_true_eq] at h
    refine ⟨bytes, rfl, ?_, ?_⟩
    · by_contra hzero
      obtain rfl : bytes = 0 := by omega
      simp at h
    · by_contra hbig
      rw [if_pos (by omega : new < bytes)] at h
      repeat' split at h
      all_goals cases h

/-- A shrink the guard allows on a block device: the instance is stopped and a known usage fits. -/
theorem decideRootShrink_block {old new : Nat} {isRunning : Bool}
    (h : decideRootShrink .blockBacked old new used isRunning = .allow) (hlower : new < old) :
    isRunning = false ∧ ∀ bytes, used = some bytes → bytes ≤ new := by
  rw [decideRootShrink, if_neg (by omega)] at h
  cases isRunning with
  | true => simp at h
  | false =>
    refine ⟨rfl, fun bytes hbytes => ?_⟩
    subst hbytes
    by_contra hbig
    simp only [elim_some, decide_eq_true_eq] at h
    rw [if_pos (by omega : new < bytes)] at h
    repeat' split at h
    all_goals cases h

/-! ## Steps that write no document -/

variable {row : ContainerRow} {name expectedName : String} {root : Option String} {history : History}
  {intent : ContainerIntent} {prefixLength : Nat} {cpus : List Nat} {hasAttachments : Bool} {document : InstanceFull}
  {diff : ManagedFieldsDiff} {detaching : List String}

/-- A call that writes no document. -/
def NoUpdate (call : Call) : Prop := ∀ history, lowersRoot history call = none

theorem noUpdate_harmless : Harmless NoUpdate := by
  intro call h history
  cases call <;> first | rfl | cases h

theorem noUpdate_powers (name : String) : Powers NoUpdate name := fun _ _ _ => rfl

theorem callSafe_of_noUpdate {call : Call} (h : NoUpdate call) : callSafe history call = true := by
  rw [callSafe, h history, elim_none]

variable {program : Pass α}

section

variable (h : program.Within NoUpdate)

include h

theorem ensures_noUpdate (hrow : rowOf history = some row) :
    program.Ensures shrinkGuard (RowKept row) (RowKept row) history :=
  h.ensures (fun _ _ hcall _ => callSafe_of_noUpdate hcall) (fun _ _ _ _ hlater _ => rowOf_cons hlater _) hrow

/-- Nothing that writes no document lowers a root. -/
theorem ensures_any : program.Promises shrinkGuard (fun _ _ => True) history :=
  h.ensures (fun _ _ hcall _ => callSafe_of_noUpdate hcall) (fun _ _ _ _ _ _ => trivial) trivial

/-- The row of the pass stays known through what writes no document. -/
theorem promises_noUpdate (hrow : rowOf history = some row) : program.Promises shrinkGuard (RowKept row) history :=
  (ensures_noUpdate h hrow).promises

end

/-! ## Writes -/

/-- A read, a change and a write are safe if the change is, of whatever document is read. -/
theorem readModifyWriteInstance_ensures {mutate : ManagedInstanceDocument → ManagedInstanceDocument}
    (hrow : rowOf history = some row) (hsafe : ∀ (response : InstanceResponse) (tag : String),
      shrinkGuard.answers history (.getInstanceFull name) (.ok response) →
      callSafe (⟨.getInstanceFull name, .ok response⟩ :: history) (.updateInstance name
          { mutate { response.document.toManagedInstanceDocument with profiles := [] } with profiles := [] }
          tag) = true) :
    (readModifyWriteInstance name mutate).Ensures shrinkGuard (RowKept row) (RowKept row) history := by
  unfold readModifyWriteInstance
  rw [ensures_bind]
  refine ensures_request (callSafe_of_noUpdate fun _ => rfl) (fun response hresponse => ?_) ?_
  · have hlater := rowOf_cons hrow ⟨.getInstanceFull name, .ok response⟩
    split
    · refine ensures_ite (fun _ => hlater) fun _ => ?_
      refine ensures_request (hsafe response _ hresponse) (fun _ _ => ?_) fun _ _ => ?_
      · exact rowOf_cons hlater _
      · exact rowOf_cons hlater _
    · exact hlater
  · exact fun _ _ => rowOf_cons hrow _

/-- A change confirmed by reads is safe when the change is. -/
theorem readAfterTimeout_ensures {mutate read : Pass α}
    (hmutate : mutate.Ensures shrinkGuard (RowKept row) (RowKept row) history) (hread : read.Within NoUpdate) :
    (readAfterTimeout mutate read).Ensures shrinkGuard (RowKept row) (RowKept row) history := by
  unfold readAfterTimeout
  rw [ensures_tryCatch]
  refine hmutate.mono (fun _ _ _ hlater => hlater) fun later error _ hlater => ?_
  refine ensures_ite (fun _ => ?_) fun _ => hlater
  rw [ensures_tryCatch]
  exact (ensures_noUpdate hread hlater).mono (fun _ _ _ hlater => hlater) fun _ _ _ hlater => hlater

theorem lastRoot_read :
    lastRoot name (⟨.getInstanceFull name, .ok response⟩ :: history) = rootSize response.document.devices := by
  simp [lastRoot, documentOf]

/-- Writing back the root size that was read, or no root, lowers nothing. -/
theorem callSafe_of_sameRoot {document : ManagedInstanceDocument} {tag : String}
    (h : rootSize document.devices = none ∨ rootSize document.devices = rootSize response.document.devices) :
    callSafe (⟨.getInstanceFull name, .ok response⟩ :: history) (.updateInstance name document tag) = true := by
  rw [callSafe, lowersRoot, lastRoot_read]
  obtain hnone | hsame := h
  · rw [hnone]
    cases (rootSize response.document.devices).bind incusBytes <;> rfl
  · rw [hsame]
    cases (rootSize response.document.devices).bind incusBytes with
    | none => rfl
    | some bytes => simp

/-- Unplugging devices keeps the root size or drops the root. -/
theorem rootSize_unplugged (devices : DeviceMap) (deviceNames : List String) :
    rootSize (devices.filter fun device => !deviceNames.contains device.1) =
      if deviceNames.contains "root" then none else rootSize devices := by
  rw [rootSize, AssocList.lookup_filter_key fun key => !deviceNames.contains key]
  cases deviceNames.contains "root" <;> rfl

section

variable (hrow : rowOf history = some row)

include hrow

theorem removeDevices_ensures :
    (removeDevices name detaching).Ensures shrinkGuard (RowKept row) (RowKept row) history := by
  refine readAfterTimeout_ensures (readModifyWriteInstance_ensures hrow fun response tag _ => ?_) ?_
  · refine callSafe_of_sameRoot ?_
    rw [rootSize_unplugged]
    split
    · exact .inl rfl
    · exact .inr rfl
  · exact (readRequired_within noUpdate_harmless).bind fun _ =>
      Program.Within.ite (within_throw _) (within_pure _)

theorem settleDetaching_ensures :
    (settleDetaching row actual detaching).Promises shrinkGuard (RowKept row) history := by
  refine ensures_ite (fun _ => ?_) fun _ => ?_
  · refine (promises_noUpdate (noUpdate_harmless.request rfl) hrow).bind fun later _ hlater => ?_
    rw [Program.Promises, ensures_bind]
    unfold unplugDetaching
    rw [ensures_tryCatch, ensures_bind]
    refine (removeDevices_ensures hlater).mono (fun later _ _ hlater => ?_) fun later error _ hlater => ?_
    · refine (promises_noUpdate (readRequired_within noUpdate_harmless) hlater).bind ?_
      exact fun later _ hlater => promises_noUpdate (noUpdate_harmless.request rfl) hlater
    · exact ensures_ite (fun _ => hlater) fun _ => trivial
  · exact promises_noUpdate (noUpdate_harmless.request rfl) hrow

theorem beforeAttachments_rowKept :
    (beforeAttachments row expectedName).Promises shrinkGuard (RowKept row) history := by
  refine (promises_noUpdate (noUpdate_harmless.request rfl) hrow).bind fun _ detaching hlater => ?_
  refine ensures_ite (fun _ => hlater) fun _ => ?_
  refine (promises_noUpdate (findInstance_within noUpdate_harmless) hlater).bind fun _ found hlater => ?_
  cases found with
  | none =>
    refine ensures_ite (fun _ => hlater) fun _ => ?_
    exact promises_noUpdate (noUpdate_harmless.request rfl) hlater
  | some actual =>
    refine ensures_ite (fun _ => hlater) fun _ => ?_
    refine (promises_noUpdate (Program.Within.when _ (setPowerState_within (noUpdate_harmless _ rfl)
      (noUpdate_powers _))) hlater).bind fun _ _ hlater => ?_
    exact ensures_ite (fun _ => hlater) fun _ => settleDetaching_ensures hlater

/-! ## From the compared document to the write -/

/-- The pass knows its row, and the root size of the instance since it read it. -/
structure Seen (row : ContainerRow) (name : String) (root : Option String) (history : History) : Prop where
  row : rowOf history = some row
  roots : rootsSince name history = some [root]

/-- The pass also knows the state of the instance. -/
structure Observed (row : ContainerRow) (name : String) (root : Option String) (state : InstanceState)
    (history : History) : Prop extends Seen row name root history where
  current : lastState name history = some state
  safe : safeReading state.rootUsage = true

/-- The pass also knows the usage, as far as it could be read. -/
structure Measured (row : ContainerRow) (name : String) (root : Option String) (state : InstanceState)
    (used : Option Nat) (history : History) : Prop extends Seen row name root history where
  current : lastState name history = some state
  usage : knownUsage name history = used.filter fun bytes => decide (0 < bytes)

/-- A call that neither reads nor writes a document. -/
def Aside (call : Call) : Prop :=
  NoUpdate call ∧ ∀ name history (answer : call.Answer),
    rootsSince name (⟨call, answer⟩ :: history) = rootsSince name history

omit hrow in
theorem Seen.aside {call : Call} (h : Seen row name root history) (hcall : Aside call)
    (answer : call.Answer) : Seen row name root (⟨call, answer⟩ :: history) :=
  ⟨rowOf_cons h.row _, (hcall.2 name history answer).trans h.roots⟩

omit hrow in
theorem ensures_aside (h : program.Within Aside) (hseen : Seen row name root history) :
    program.Promises shrinkGuard (fun later _ => Seen row name root later) history :=
  (h.ensures (fun _ _ hcall _ => callSafe_of_noUpdate hcall.1)
    (fun _ _ answer hcall hlater _ => hlater.aside hcall answer) hseen).promises

theorem readRequired_seen : (readRequired name).Promises shrinkGuard
      (fun later actual => actual.name = name ∧ Seen row name (rootSize actual.document.devices) later) history := by
  unfold readRequired
  rw [Program.Promises, ensures_bind]
  refine ensures_request (callSafe_of_noUpdate fun _ => rfl) (fun response _ => ?_) fun _ _ => trivial
  refine ⟨rfl, rowOf_cons hrow _, ?_⟩
  simp [rootsSince, documentOf]

theorem findInstance_seen : (findInstance expectedName row).Promises shrinkGuard
      (fun later found => rowOf later = some row ∧ ∀ actual, found = some actual →
        actual.name = expectedName → Seen row expectedName (rootSize actual.document.devices) later) history := by
  unfold findInstance findExpectedOrIdentity
  rw [Program.Promises, ensures_bind, ensures_bind, ensures_tryCatch, ensures_bind]
  refine ensures_request (callSafe_of_noUpdate fun _ => rfl) (fun response _ => ?_) fun error _ => ?_
  · refine ⟨rowOf_cons hrow _, fun actual hactual _ => ⟨rowOf_cons hrow _, ?_⟩⟩
    cases hactual
    simp [rootsSince, documentOf]
  refine ensures_ite (fun _ => ?_) fun _ => trivial
  have hlater := rowOf_cons hrow ⟨.getInstanceFull expectedName, .error error⟩
  refine ensures_bind.mpr (ensures_request (callSafe_of_noUpdate fun _ => rfl) ?_ fun _ _ => trivial)
  intro (listed : List InstanceFull) hreadable
  refine ⟨rowOf_cons hlater _, fun actual hactual hexpected => ⟨rowOf_cons hlater _, ?_⟩⟩
  obtain ⟨hall, hnames⟩ := Bool.and_eq_true_iff.mp hreadable
  simp only [identityMatch] at hactual
  cases hitem : listed.find? (carriesContainer row.id) with
  | none => simp [hitem] at hactual
  | some item =>
    simp only [hitem, Option.some.injEq] at hactual
    subst hactual
    have hmem := List.mem_of_find?_eq_some hitem
    have hsome := (Bool.and_eq_true_iff.mp (List.all_eq_true.mp hall item hmem)).1
    obtain ⟨listedAs, hlistedAs⟩ := isSome_iff_exists.mp hsome
    have hname : item.name = some expectedName := by
      rw [hlistedAs] at hexpected ⊢
      exact congrArg some hexpected
    have hfound := find?_key_eq_some (of_decide_eq_true hnames) hmem
    rw [hname] at hfound
    simp [rootsSince, documentOf, hfound]

theorem ensureInstance_seen :
    (ensureInstance row desired expectedName).Promises shrinkGuard (fun later actual => actual.name = expectedName ∧
        Seen row expectedName (rootSize actual.document.devices) later) history := by
  refine (findInstance_seen hrow).bind ?_
  rintro later found ⟨hlater, hfound⟩
  cases found with
  | none =>
    refine (promises_noUpdate (noUpdate_harmless.request rfl) hlater).bind fun _ _ hlater => ?_
    refine (promises_noUpdate (createInstance_within noUpdate_harmless) hlater).bind fun _ _ hlater => ?_
    refine (promises_noUpdate (noUpdate_harmless.request rfl) hlater).bind fun _ _ hlater => ?_
    exact readRequired_seen hlater
  | some actual =>
    refine ensures_ite (fun _ => ?_) fun hsame => ?_
    · refine (promises_noUpdate (renameInstance_within noUpdate_harmless fun _ => rfl) hlater).bind ?_
      exact fun _ _ hlater => readRequired_seen hlater
    · have hexpected : actual.name = expectedName := by simpa using hsame
      exact ⟨hexpected, hfound actual rfl hexpected⟩

end

theorem readState_observed (h : Seen row name root history) :
    (readState name).Promises shrinkGuard (fun later state => Observed row name root state later) history := by
  refine ensures_request (callSafe_of_noUpdate fun _ => rfl) (fun (state : InstanceState) hreadable => ?_)
    fun _ _ => trivial
  refine ⟨h.aside ⟨fun _ => rfl, fun _ _ _ => rfl⟩ _, ?_, hreadable⟩
  simp [lastState, stateOf]

theorem stopForDisruptiveChange_observed (h : Observed row name root state history) :
    (stopForDisruptiveChange intent row ⟨name, document⟩ desired diff state).Promises shrinkGuard
      (fun later stopped => Observed row name root stopped later) history := by
  refine ensures_ite (fun _ => h) fun _ => ensures_ite (fun _ => h) fun _ => ?_
  refine ensures_ite (fun _ => ?_) fun _ => h
  refine (ensures_aside (setPowerState_within ⟨fun _ => rfl, fun _ _ _ => rfl⟩ ?_) h.toSeen).bind
    fun _ _ hlater => readState_observed hlater
  exact fun _ _ => ⟨fun _ => rfl, fun _ _ _ => rfl⟩

theorem lastState_volume {pool : String} (answer : (Call.getStorageVolumeState pool name).Answer) :
    lastState name (⟨.getStorageVolumeState pool name, answer⟩ :: history) = lastState name history := rfl

theorem observeRootUsage_measured {pool : String} (h : Observed row name root state history) :
    (observeRootUsage pool name state).Promises shrinkGuard
      (fun later used => Measured row name root state used later) history := by
  have hstate : (lastState name history).bind (fun state => usageBytes state.rootUsage) =
      positiveUsage state.rootUsage := by
    rw [h.current, bind_some, usageBytes_of_safe h.safe]
  have hvolume : Aside (.getStorageVolumeState pool name) := ⟨fun _ => rfl, fun _ _ _ => rfl⟩
  have hpositive : ∀ {reading : Reading} {usage : Nat}, positiveUsage reading = some usage →
      some usage = (some usage).filter fun bytes => decide (0 < bytes) := by
    intro reading usage husage
    rw [filter_some, if_pos (filter_eq_some_iff.mp husage).2]
  unfold observeRootUsage
  split
  · rename_i usage husage
    refine ⟨h.toSeen, h.current, ?_⟩
    rw [knownUsage, hstate, husage, some_or]
    exact hpositive husage
  · rename_i hnone
    rw [Program.Promises, ensures_tryCatch]
    refine ensures_bind.mpr (ensures_request (callSafe_of_noUpdate fun _ => rfl)
      (fun (used : Reading) hreadable => ?_) fun error _ => ?_)
    · -- The volume was read: its usage counts only where the state has none.
      have hknown : knownUsage name (⟨.getStorageVolumeState pool name, .ok used⟩ :: history) = positiveUsage used := by
        rw [knownUsage, lastState_volume, hstate, hnone, none_or]
        exact usageBytes_of_safe hreadable
      split
      · rename_i usage husage
        exact ⟨h.toSeen.aside hvolume _, h.current, hknown.trans (husage.trans (hpositive husage))⟩
      · rename_i hunused
        exact ⟨h.toSeen.aside hvolume _, h.current, hknown.trans (hunused.trans hnone.symm)⟩
    · have hknown : knownUsage name (⟨.getStorageVolumeState pool name, .error error⟩ :: history) =
          none := by
        rw [knownUsage, lastState_volume, hstate, hnone]
        rfl
      exact ⟨h.toSeen.aside hvolume _, h.current, hknown.trans hnone.symm⟩

/-! ## The write -/

/-- Calls of the audit change nothing the pass knows. -/
theorem Measured.audit (h : Measured row name root state used history) (call : Call) (hcall : Aside call)
    (hstate : ∀ answer, stateOf name ⟨call, answer⟩ = none) (hvolume : ∀ answer, volumeUsageOf ⟨call, answer⟩ = none)
    (answer : call.Answer) : Measured row name root state used (⟨call, answer⟩ :: history) := by
  have hlast : lastState name (⟨call, answer⟩ :: history) = lastState name history := by
    rw [lastState, List.findSome?_cons, hstate]
    rfl
  refine ⟨h.toSeen.aside hcall answer, hlast.trans h.current, ?_⟩
  rw [← h.usage, knownUsage, hlast, List.findSome?_cons, hvolume]
  rfl

theorem guardRootShrink_allows {fact : History → Prop}
    (h : fact history) : (guardRootShrink row actual desired state used).Promises shrinkGuard
      (fun later _ => fact later ∧ rootShrinkDecision row actual desired used (running state) = .allow) history := by
  unfold guardRootShrink
  dsimp only
  split
  · refine ⟨h, ?_⟩
    cases hdecision : rootShrinkDecision row actual desired used (running state) <;> simp_all [RootShrinkDecision.code]
  · rw [Program.Promises, ensures_bind]
    exact ensures_any (.when _ (noUpdate_harmless.request rfl))

section

variable (h : Measured row name (rootSize actual.document.devices) state used history)
  (hallow : rootShrinkDecision row actual desired used (running state) = .allow)
  (hdesired : plainRoot desired.devices = true)

include h hallow hdesired

/-- The write of a pass is safe by what was measured before it and by what the guard allowed. -/
theorem put_safe {document : ManagedInstanceDocument} {tag : String} (hdocument : document.devices = desired.devices)
    (hreadable : shrinkGuard.answers history (.getInstanceFull name) (.ok response)) :
    callSafe (⟨.getInstanceFull name, .ok response⟩ :: history) (.updateInstance name document tag) = true := by
  obtain ⟨hplain, hroots⟩ := Bool.and_eq_true_iff.mp hreadable
  rw [h.roots, elim_some, List.contains_iff_mem, List.mem_singleton] at hroots
  have hactual : rootBytes actual.document.devices = (rootSize response.document.devices).bind incusBytes := by
    rw [hroots]
    refine rootBytes_of_plain ?_
    rw [plainRoot, ← hroots]
    exact hplain
  have hlast : lastState name (⟨.getInstanceFull name, .ok response⟩ :: history) = some state := h.current
  have hknown : knownUsage name (⟨.getInstanceFull name, .ok response⟩ :: history) =
      used.filter fun bytes => decide (0 < bytes) := h.usage
  rw [callSafe, lowersRoot, lastRoot_read, ← hactual, hdocument, ← rootBytes_of_plain hdesired]
  split
  · rename_i old new hold hnew
    rw [rootShrinkDecision, hold, hnew] at hallow
    split
    · rename_i hlower
      rw [elim_some, rowOf_cons h.row]
      dsimp only [elim_some]
      cases hfamily : row.rootResizeFamily with
      | quotaOnline =>
        rw [hfamily] at hallow
        obtain ⟨bytes, rfl, hpositive, hfits⟩ := decideRootShrink_online hallow hlower
        rw [shrinkSafe, hknown, filter_some, if_pos (decide_eq_true hpositive)]
        exact decide_eq_true hfits
      | blockBacked =>
        rw [hfamily] at hallow
        obtain ⟨hstopped, hfits⟩ := decideRootShrink_block hallow hlower
        simp only [shrinkSafe, hlast, hknown, elim_some, hstopped, Bool.not_false, Bool.true_and]
        cases hfilter : used.filter fun bytes => decide (0 < bytes) with
        | none => rfl
        | some bytes =>
          exact decide_eq_true (hfits bytes (filter_eq_some_iff.mp hfilter).1)
    · rfl
  · rfl

theorem putManagedFields_safe :
    (putManagedFields name desired hasAttachments).Promises shrinkGuard (RowKept row) history := by
  unfold putManagedFields
  rw [Program.Promises, ensures_tryCatch]
  refine (readAfterTimeout_ensures (readModifyWriteInstance_ensures h.row fun response tag hreadable =>
    put_safe h hallow hdesired rfl hreadable) ?_).mono (fun _ _ _ hlater => hlater) fun _ _ _ _ => ?_
  · refine (readRequired_within noUpdate_harmless).bind fun after => ?_
    cases compareManagedFields after.document.toManagedInstanceDocument desired with
    | error failure => exact within_throw _
    | ok diff => exact Program.Within.ite (within_pure _) (within_throw _)
  · exact ensures_ite (fun _ => trivial) fun _ => trivial

theorem writeManagedFields_safe :
    (writeManagedFields intent desired name hasAttachments diff).Promises shrinkGuard (RowKept row) history := by
  refine ensures_ite (fun _ => h.row) fun _ => ?_
  refine ensures_bind.mpr (ensures_request (callSafe_of_noUpdate fun _ => rfl) (fun _ _ => ?_) fun _ _ => trivial)
  have hmutate := h.audit (.auditMutate "PUT" ("/1.0/instances/" ++ name))
    ⟨fun _ => rfl, fun _ _ _ => rfl⟩ (fun _ => rfl) (fun _ => rfl) (.ok ())
  refine ensures_bind.mpr ?_
  cases intent.source == some "full_scan" with
  | false => exact putManagedFields_safe hmutate hallow hdesired
  | true =>
    refine ensures_request (callSafe_of_noUpdate fun _ => rfl) (fun _ _ => ?_) fun _ _ => trivial
    exact putManagedFields_safe (hmutate.audit (.auditDrift diff)
      ⟨fun _ => rfl, fun _ _ _ => rfl⟩ (fun _ => rfl) (fun _ => rfl) (.ok ())) hallow hdesired

end

/-! ## The pass -/

theorem convergeFields_safe
    (h : Observed row name (rootSize document.devices) state history) (hdesired : plainRoot desired.devices = true) :
    (convergeFields intent row prefixLength desired name cpus hasAttachments ⟨name, document⟩ diff
      state).Promises shrinkGuard (fun _ _ => True) history := by
  refine (stopForDisruptiveChange_observed h).bind fun later stopped hobserved => ?_
  refine (observeRootUsage_measured hobserved).bind fun later used hmeasured => ?_
  refine (guardRootShrink_allows hmeasured).bind ?_
  rintro later _ ⟨hmeasured, hallow⟩
  refine ensures_ite (fun _ => trivial) fun _ => ?_
  refine (writeManagedFields_safe hmeasured hallow hdesired).bind fun _ _ _ => ?_
  exact ensures_any (convergePower_within noUpdate_harmless (noUpdate_powers _))

theorem convergeInstance_safe (hrow : rowOf history = some row) (hdesired : plainRoot desired.devices = true) :
    (convergeInstance intent row prefixLength desired expectedName cpus hasAttachments).Promises
      shrinkGuard (fun _ _ => True) history := by
  refine (ensureInstance_seen hrow).bind ?_
  rintro later ⟨name, document⟩ ⟨rfl, hseen⟩
  cases checkIdentity ⟨name, document⟩ row name with
  | some refused => trivial
  | none =>
    refine (readState_observed hseen).bind fun later state hobserved => ?_
    cases compareManagedFields document.toManagedInstanceDocument desired with
    | error failure => trivial
    | ok diff => exact convergeFields_safe hobserved hdesired

theorem reconcileRow_safe (sha256Hex : String → String) (hrow : rowOf history = some row) :
    (reconcileRow sha256Hex intent row prefixLength).Promises shrinkGuard (fun _ _ => True) history := by
  unfold reconcileRow
  cases deriveInstanceName row.id with
  | error error => trivial
  | ok expectedName =>
    refine ensures_ite (fun _ => ensures_any ?_) fun _ => ?_
    · exact reconcileDelete_within noUpdate_harmless (fun name => noUpdate_powers name) (fun _ _ => rfl)
    refine (beforeAttachments_rowKept hrow).bind fun later _ hlater => ?_
    refine (promises_noUpdate (prepareAttachments_within noUpdate_harmless) hlater).bind fun later prepared hlater => ?_
    cases prepared with
    | outcome outcome => trivial
    | attachments attachments =>
      refine (promises_noUpdate (noUpdate_harmless.request rfl) hlater).bind fun later runtime hlater => ?_
      cases hdesired : buildContainerSpec sha256Hex row (toSpecAttachments attachments) runtime with
      | error error => trivial
      | ok desired =>
        exact convergeInstance_safe hlater (buildContainerSpec_root hdesired)

theorem reconcile_safe (sha256Hex : String → String) (client : Bool) :
    (reconcile sha256Hex client intent).Promises shrinkGuard (fun _ _ => True) [] := by
  refine ensures_ite (fun _ => trivial) fun _ => ?_
  refine ensures_bind.mpr (ensures_bind.mpr
    (ensures_request (callSafe_of_noUpdate fun _ => rfl) (fun read _ => ?_) fun _ _ => trivial))
  cases hloaded : loadRow intent read with
  | outcome outcome => trivial
  | row row prefixLength =>
    obtain rfl : read = some row := loadRow_row hloaded
    exact reconcileRow_safe sha256Hex rfl

theorem unsafeShrinks_eq_nil (h : shrinkGuard.Respected history) : unsafeShrinks history = [] := by
  induction history with
  | nil => rfl
  | cons exchange earlier ih =>
    obtain ⟨hasks, hearlier⟩ := h
    have hsafe : callSafe earlier exchange.question = true := hasks
    simp [unsafeShrinks, hsafe, ih hearlier]

/-- For every row, every instance document, every power state and every usage reading of a pass whose root
sizes are plain digits that nobody else changes meanwhile: a write that lowers the root size is made on a
pool that resizes online only with a known usage that is positive and fits, and on a block-backed pool only
on a stopped instance whose usage, if it is known, fits. -/
theorem roots_shrink_only_above_their_data (sha256Hex : String → String) (client : Bool)
    (intent : ContainerIntent) (world : History → (call : Call) → call.Answer)
    (hreadable : shrinkGuard.Answered ((reconcile sha256Hex client intent).run world []).1) :
    unsafeShrinks ((reconcile sha256Hex client intent).run world []).1 = [] :=
  unsafeShrinks_eq_nil ((reconcile_safe sha256Hex client).run trivial hreadable).1

/-! ## Two passes over a running instance -/

/-- A running instance of the container, with a root of the given size. -/
def instanceWithRoot (size : String) : InstanceFull where
  config := [(managedKey, "true"), (containerIdKey, sampleRow.id), (serverIdKey, sampleRow.serverId)]
  devices :=
    [("root", [("type", "disk"), ("path", "/"), ("pool", "pool"), ("size", size)]),
      ("eth0", [("type", "nic"), ("nictype", "bridged")])]
  profiles := []
  name := some sampleName
  status := some "Running"
  state := none

/-- A world with one instance whose root is of this size and holds this much data; its writes fail. -/
def rootWorld (size : String) (used : Int) (_ : History) : (call : Call) → call.Answer
  | .getInstanceFull _ => .ok { document := instanceWithRoot size, etag := some "tag" }
  | .getInstanceState _ =>
    .ok { status := some "Running", startedAt := none, rootUsage := .number used }
  | call => storeAnswer sampleRow call

/-- The root sizes a history wrote. -/
def writtenRoots (history : History) : List (Option String) :=
  history.filterMap fun exchange =>
    match exchange.question with
    | .updateInstance _ document _ => some (rootSize document.devices)
    | _ => none

/-- The history of an update of the sample container. -/
def rootPass (size : String) (used : Int) : History :=
  ((reconcile id true (sampleIntent .update)).run (rootWorld size used) []).1

/-- A root of nine gigabytes that holds three is lowered to five. -/
theorem plain_root_lowered_above_usage : (writtenRoots (rootPass "9000000000" 3000000000) = [some "5000000000"] ∧
      shrinkGuard.Answered (rootPass "9000000000" 3000000000)) ∧
    unsafeShrinks (rootPass "9000000000" 3000000000) = [] := by
  have hrun : writtenRoots (rootPass "9000000000" 3000000000) = [some "5000000000"] ∧
      shrinkGuard.Answered (rootPass "9000000000" 3000000000) := by decide +kernel
  have hsafe := roots_shrink_only_above_their_data id true (sampleIntent .update)
    (rootWorld "9000000000" 3000000000) hrun.2
  exact ⟨hrun, hsafe⟩

/-- A root of ten gibibytes that holds eight gigabytes is lowered to five gigabytes: the guard cannot read
the unit. -/
theorem root_with_unit_lowered_below_usage : writtenRoots (rootPass "10GiB" 8000000000) = [some "5000000000"] ∧
      (unsafeShrinks (rootPass "10GiB" 8000000000)).length = 1 := by
  decide +kernel

end Nyabase.Backend
