import Nyabase.Backend.ReconcileFootprint

/-!
# A pass changes only the container's own instance

The instance of a row is found by its name or by its labels, and create, rename, unplug, power, update and
delete each check the labels in their own place.  Here a call that changes an instance must be licensed: the
document of that name that the same pass read last is labelled managed, with the row's container id and the
row's server id.
-/

namespace Nyabase.Backend

open Lib Program

/-- The instance an exchange reads: one document, or the first of a listing that carries the container's id. -/
def readIn (row : ContainerRow) : Exchange Call.Answer → Option ActualInstance
  | ⟨.getInstanceFull name, .ok response⟩ => some ⟨name, response.document⟩
  | ⟨.listInstances, .ok listed⟩ =>
    (deriveInstanceName row.id).toOption.bind fun expectedName =>
      (identityMatch expectedName row.id row.serverId listed).1
  | _ => none

/-- The document of this name that the pass read last has the labels of its row. -/
def licensed (name : String) (history : History) : Bool :=
  (rowOf history).elim false fun row =>
    ((history.filterMap (readIn row)).find? (·.name == name)).any fun actual => isOwn row actual.document

/-- Every change of an instance is licensed by what was read before it. -/
def ChangesOwn (history : History) (call : Call) : Prop :=
  ∀ name, call.target = some name → licensed name history = true

/-- The instances a pass changed without a licence. -/
def unlicensedChanges : History → List String
  | [] => []
  | exchange :: earlier =>
    (exchange.question.target.toList.filter fun name => !licensed name earlier) ++ unlicensedChanges earlier

/-- A pass that deletes the instance. -/
def deletes (intent : ContainerIntent) (row : ContainerRow) : Bool :=
  row.lifecyclePhase == .deleting || intent.kind == .delete

/-- The document is labelled managed, with the row's server id. -/
def onServer (row : ContainerRow) (document : InstanceFull) : Bool :=
  (managedContainerIdentity document).managed &&
    (managedContainerIdentity document).serverId == normalized (some row.serverId)

/-- The host's labels are consistent for the row of the pass.  What the pass reads is the container's own, or it
was not when it was read before, and then: in a pass that converges it has the container's name, in a pass that
deletes it is not labelled managed with the row's server id. -/
def labelled (intent : ContainerIntent) (earlier : History) (exchange : Exchange Call.Answer) : Bool :=
  (rowOf earlier).elim true fun row => (readIn row exchange).all fun actual =>
    isOwn row actual.document || !licensed actual.name earlier &&
      if deletes intent row then !onServer row actual.document
      else (deriveInstanceName row.id).toOption == some actual.name

/-- Changes are licensed on a host whose labels are consistent. -/
def ownership (intent : ContainerIntent) : Contract Call.Answer where
  answers earlier call answer := labelled intent earlier ⟨call, answer⟩ = true
  asks := ChangesOwn

instance (intent : ContainerIntent) (earlier : History) (call : Call) (answer : call.Answer) :
    Decidable ((ownership intent).answers earlier call answer) :=
  inferInstanceAs (Decidable (_ = true))

variable {intent : ContainerIntent} {row : ContainerRow} {name expectedName : String} {history : History}
  {desired : DesiredInstanceSpec} {prefixLength : Nat} {cpus : List Nat} {hasAttachments : Bool}

/-! ## Licences stay -/

/-- The row of the pass is `row`, and the instance is shown to be its own. -/
def Held (row : ContainerRow) (name : String) (history : History) : Prop :=
  rowOf history = some row ∧ licensed name history = true

/-- A read decides about the instance it reads. -/
theorem licensed_of_read (hrow : rowOf history = some row) {exchange : Exchange Call.Answer} {actual : ActualInstance}
    (hread : readIn row exchange = some actual) : licensed name (exchange :: history) =
      if actual.name = name then isOwn row actual.document else licensed name history := by
  rw [licensed, licensed, hrow, rowOf_cons hrow, Option.elim_some, Option.elim_some, List.filterMap_cons_some hread,
    List.find?_cons]
  by_cases hname : actual.name = name
  · rw [if_pos hname, beq_iff_eq.mpr hname]
    rfl
  · rw [if_neg hname, beq_false_of_ne hname]

theorem held_of_read (hrow : rowOf history = some row) {exchange : Exchange Call.Answer} {actual : ActualInstance}
    (hread : readIn row exchange = some actual) (hown : isOwn row actual.document = true) :
    Held row actual.name (exchange :: history) :=
  ⟨rowOf_cons hrow exchange, by rw [licensed_of_read hrow hread, if_pos rfl, hown]⟩

/-- What was read as the container's own is read so again. -/
theorem Held.answer (h : Held row name history) {exchange : Exchange Call.Answer}
    (hlabelled : labelled intent history exchange = true) : Held row name (exchange :: history) := by
  obtain ⟨hrow, hlicensed⟩ := h
  refine ⟨rowOf_cons hrow exchange, ?_⟩
  cases hread : readIn row exchange with
  | none =>
    rw [licensed, hrow, Option.elim_some] at hlicensed
    rw [licensed, rowOf_cons hrow, Option.elim_some, List.filterMap_cons_none hread]
    exact hlicensed
  | some actual =>
    rw [licensed_of_read hrow hread]
    split
    · next hname =>
      rw [labelled, hrow, Option.elim_some, hread, Option.all_some, hname, hlicensed] at hlabelled
      simpa using hlabelled
    · exact hlicensed

theorem changesOwn_of_harmless {call : Call} (h : call.target = none) : ChangesOwn history call := by
  intro name htarget
  rw [h] at htarget
  cases htarget

/-- A call that changes this instance, if any. -/
def OnlyOn (name : String) (call : Call) : Prop := call.target = none ∨ call.target = some name

theorem onlyOn_harmless (name : String) : Harmless (OnlyOn name) := fun _ h => .inl h

theorem onlyOn_powers (name : String) : Powers (OnlyOn name) name := fun _ _ => .inr rfl

theorem onlyOn_writes (name : String) : Writes (OnlyOn name) name := fun _ _ => .inr rfl

variable {α : Type}

variable {program : Pass α}

/-- What changes only a licensed instance respects the contract. -/
theorem ensures_licensed (h : program.Within (OnlyOn name)) (hlicensed : Held row name history) :
    program.Promises (ownership intent) (fun later _ => Held row name later) history := by
  refine (h.ensures (fun later call hcall hlater target htarget => ?_)
    (fun later call answer _ hlater hanswer => hlater.answer hanswer) hlicensed).promises
  obtain hnone | hsome := hcall
  · rw [hnone] at htarget
    cases htarget
  · obtain rfl : name = target := Option.some.inj (hsome.symm.trans htarget)
    exact hlater.2

/-- What changes no instance respects the contract. -/
theorem ensures_harmless (h : program.Within fun call => call.target = none) (hrow : rowOf history = some row) :
    program.Promises (ownership intent) (RowKept row) history := by
  have hkept : program.Ensures (ownership intent) (RowKept row) (RowKept row) history :=
    h.ensures (fun later call hcall _ => changesOwn_of_harmless hcall)
      (fun later call answer _ hlater _ => rowOf_cons hlater _) hrow
  exact hkept.promises

theorem harmless_self : Harmless fun call => call.target = none := fun _ h => h

/-! ## Finding the instance -/

/-- What a pass knows of the instance it found. -/
structure Found (intent : ContainerIntent) (row : ContainerRow) (expectedName : String)
    (actual : ActualInstance) (history : History) : Prop where
  own : isOwn row actual.document = true → Held row actual.name history
  moved : deletes intent row = false → actual.name ≠ expectedName → isOwn row actual.document = true
  condemned : deletes intent row = true → onServer row actual.document = true → isOwn row actual.document = true

section

variable (hrow : rowOf history = some row)

include hrow

section

variable (hname : deriveInstanceName row.id = .ok expectedName)

include hname

/-- What is read is what the pass may rely on. -/
theorem found_of_read {exchange : Exchange Call.Answer} {actual : ActualInstance}
    (hread : readIn row exchange = some actual) (hlabelled : labelled intent history exchange = true) :
    Found intent row expectedName actual (exchange :: history) := by
  rw [labelled, hrow, Option.elim_some, hread, Option.all_some, hname, Bool.or_eq_true, Bool.and_eq_true] at hlabelled
  refine ⟨held_of_read hrow hread, fun hdeletes hne => ?_, fun hdeletes hserver => ?_⟩
  · refine hlabelled.resolve_right fun hother => hne ?_
    have hexpected : expectedName = actual.name := by simpa [hdeletes, Except.toOption] using hother.2
    exact hexpected.symm
  · refine hlabelled.resolve_right fun hother => ?_
    simp [hdeletes, hserver] at hother

theorem findInstance_ensures :
    (findInstance expectedName row).Promises (ownership intent) (fun later found => rowOf later = some row ∧
        ∀ actual, found = some actual → Found intent row expectedName actual later) history := by
  unfold findInstance findExpectedOrIdentity
  rw [Program.Promises, ensures_bind, ensures_bind, ensures_tryCatch, ensures_bind]
  refine ensures_request (changesOwn_of_harmless rfl) (fun response hlabelled => ?_) fun error _ => ?_
  · refine ⟨rowOf_cons hrow _, fun actual hactual => found_of_read hrow hname ?_ hlabelled⟩
    exact hactual
  split
  · have hlater := rowOf_cons hrow ⟨.getInstanceFull expectedName, .error error⟩
    refine ensures_bind.mpr (ensures_request (changesOwn_of_harmless rfl) ?_ fun _ _ => trivial)
    intro listed hlabelled
    refine ⟨rowOf_cons hlater _, fun actual hactual => found_of_read hlater hname ?_ hlabelled⟩
    rw [readIn, hname]
    exact hactual
  · trivial

end

/-- What a read of the instance by its name licenses. -/
def Licenses (row : ContainerRow) (name : String) (history : History) (actual : ActualInstance) : Prop :=
  rowOf history = some row ∧ actual.name = name ∧ (isOwn row actual.document = true → Held row name history)

theorem readRequired_ensures (name : String) :
    (readRequired name).Promises (ownership intent) (Licenses row name) history := by
  unfold readRequired
  rw [Program.Promises, ensures_bind]
  refine ensures_request (changesOwn_of_harmless rfl) (fun response _ => ?_) fun _ _ => trivial
  exact ⟨rowOf_cons hrow _, rfl, fun hown => held_of_read hrow rfl hown⟩

omit hrow in
theorem isOwn_of_checkIdentity {actual : ActualInstance}
    (h : checkIdentity actual row expectedName = none) : isOwn row actual.document = true := by
  unfold checkIdentity at h
  split at h
  · cases h
  split at h
  · cases h
  · rename_i hown
    simpa using hown

/-! ## The steps before the labels are checked -/

section

variable (hname : deriveInstanceName row.id = .ok expectedName)

include hname

theorem ensureInstance_ensures (hdeletes : deletes intent row = false) :
    (ensureInstance row desired expectedName).Promises (ownership intent) (Licenses row expectedName) history := by
  refine (findInstance_ensures hrow hname).bind ?_
  rintro later found ⟨hlater, hfound⟩
  cases found with
  | none =>
    refine (ensures_harmless (request_within (by rfl)) hlater).bind fun _ _ hlater => ?_
    refine (ensures_harmless (createInstance_within harmless_self) hlater).bind fun _ _ hlater => ?_
    refine (ensures_harmless (request_within (by rfl)) hlater).bind fun _ _ hlater => ?_
    exact readRequired_ensures hlater expectedName
  | some actual =>
    have hactual := hfound actual rfl
    dsimp only
    split
    · rename_i hne
      -- The rename comes before the labels are checked: only a consistent host makes it safe.
      have hown := hactual.own (hactual.moved hdeletes (by simpa using hne))
      refine (ensures_licensed (renameInstance_within (onlyOn_harmless _) (.inr rfl)) hown).bind ?_
      exact fun _ _ hlater => readRequired_ensures hlater.1 expectedName
    · rename_i heq
      have hexpected : actual.name = expectedName := by simpa using heq
      exact ⟨hlater, hexpected, fun hown => hexpected ▸ hactual.own hown⟩

theorem beforeAttachments_ensures :
    (beforeAttachments row expectedName).Promises (ownership intent) (RowKept row) history := by
  refine (ensures_harmless (request_within (by rfl)) hrow).bind fun later detaching hlater => ?_
  split
  · exact hlater
  refine (findInstance_ensures hlater hname).bind ?_
  rintro later found ⟨hlater, hfound⟩
  cases found with
  | none =>
    refine ensures_ite (fun _ => hlater) fun _ => ?_
    exact ensures_harmless (request_within (by rfl)) hlater
  | some actual =>
    dsimp only
    split
    · exact hlater
    rename_i hrefused
    have hown : isOwn row actual.document = true := isOwn_of_checkIdentity (Option.not_isSome_iff_eq_none.mp hrefused)
    refine (ensures_licensed (Program.Within.when _ (setPowerState_within (onlyOn_harmless _ _ rfl)
      (onlyOn_powers _))) ((hfound actual rfl).own hown)).bind fun later _ hlicensed => ?_
    split
    · exact hlicensed.1
    · exact (ensures_licensed (settleDetaching_within (onlyOn_harmless _) (onlyOn_writes _))
        hlicensed).mono fun _ _ _ hlicensed => hlicensed.1

theorem reconcileDelete_ensures (hdeletes : deletes intent row = true) :
    (reconcileDelete row expectedName).Promises (ownership intent) (fun _ _ => True) history := by
  refine (findInstance_ensures hrow hname).bind ?_
  rintro later found ⟨hlater, hfound⟩
  rw [Program.Promises, ensures_bind]
  have hrest : ∀ later deleted, rowOf later = some row → (if !deleted && found.isSome then
          return failedOutcome "INSTANCE_DELETE_IDENTITY_MISMATCH"
            "The managed instance could not be safely deleted due to its identity"
        else do
          verifyAbsent expectedName
          request (.releaseContainerState row.id)
          return succeededOutcome row.revision false : Pass ReconcileOutcome).Promises (ownership intent)
        (fun _ _ => True) later := by
    intro later deleted hlater
    split
    · trivial
    · refine (ensures_harmless (readAbsent_within harmless_self) hlater).bind fun _ _ hlater => ?_
      exact (ensures_harmless (request_within (by rfl)) hlater).bind fun _ _ _ => trivial
  refine Program.Ensures.mono ?_ (fun later deleted _ => hrest later deleted) fun _ _ _ h => h
  unfold deleteDesiredInstance
  cases found with
  | none => exact hlater
  | some actual =>
    have hactual := hfound actual rfl
    dsimp only
    split
    · exact hlater
    split
    · exact hlater
    rename_i hmanaged hserver
    -- The container id is not checked here: only a consistent host makes the delete safe.
    have hown := hactual.own (hactual.condemned hdeletes (by simp_all [onServer]))
    refine (ensures_licensed ?_ hown).bind fun _ _ hlicensed => hlicensed.1
    refine Program.Within.ite (within_pure ()) ?_
    refine (request_within (onlyOn_harmless _ _ rfl)).bind fun _ => ?_
    exact deletePhysicalInstance_within (onlyOn_harmless _) (onlyOn_powers _) (.inr rfl)

end

/-! ## The pass -/

omit hrow in
theorem convergeFields_within {document : InstanceFull} {diff : ManagedFieldsDiff} {state : InstanceState} :
    (convergeFields intent row prefixLength desired name cpus hasAttachments ⟨name, document⟩ diff
      state).Within (OnlyOn name) := by
  have hread := onlyOn_harmless name
  have hpower := onlyOn_powers name
  refine (stopForDisruptiveChange_within hread hpower).bind fun state => ?_
  refine (observeRootUsage_within hread).bind fun usedBytes => ?_
  refine (guardRootShrink_within hread).bind fun _ => ?_
  refine Program.Within.ite (within_pure _) ?_
  refine (writeManagedFields_within hread (onlyOn_writes name)).bind fun _ => ?_
  exact convergePower_within hread hpower

theorem convergeInstance_ensures (hname : deriveInstanceName row.id = .ok expectedName)
    (hdeletes : deletes intent row = false) :
    (convergeInstance intent row prefixLength desired expectedName cpus hasAttachments).Promises
      (ownership intent) (fun _ _ => True) history := by
  refine (ensureInstance_ensures hrow hname hdeletes).bind ?_
  rintro later ⟨name, document⟩ ⟨hlater, rfl, hown⟩
  cases hchecked : checkIdentity ⟨name, document⟩ row name with
  | some refused => trivial
  | none =>
    have hlicensed := hown (isOwn_of_checkIdentity hchecked)
    refine (ensures_licensed (readState_within (onlyOn_harmless _ _ rfl)) hlicensed).bind
      fun later state hlicensed => ?_
    cases compareManagedFields document.toManagedInstanceDocument desired with
    | error failure => trivial
    | ok diff =>
      exact (ensures_licensed convergeFields_within hlicensed).mono fun _ _ _ _ => trivial

end

theorem reconcileRow_ensures (sha256Hex : String → String) (hrow : rowOf history = some row) :
    (reconcileRow sha256Hex intent row prefixLength).Promises (ownership intent) (fun _ _ => True) history := by
  unfold reconcileRow
  rw [Program.Promises, ensures_bind, ensures_ofExcept]
  cases hname : deriveInstanceName row.id with
  | error error => trivial
  | ok expectedName =>
    dsimp only
    split
    · exact reconcileDelete_ensures hrow hname ‹_›
    rename_i hdeletes
    have hconverges : deletes intent row = false := by simpa [deletes] using hdeletes
    refine (beforeAttachments_ensures hrow hname).bind fun later _ hlater => ?_
    refine (ensures_harmless (prepareAttachments_within harmless_self) hlater).bind fun later prepared hlater => ?_
    cases prepared with
    | outcome outcome => trivial
    | attachments attachments =>
      refine (ensures_harmless (request_within (by rfl)) hlater).bind fun later runtime hlater => ?_
      refine (ensures_harmless (within_ofExcept _) hlater).bind fun later desired hlater => ?_
      exact convergeInstance_ensures hlater hname hconverges

theorem reconcile_ensures (sha256Hex : String → String) (client : Bool) (intent : ContainerIntent) :
    (reconcile sha256Hex client intent).Promises (ownership intent) (fun _ _ => True) [] := by
  unfold reconcile
  split
  · trivial
  refine ensures_bind.mpr (ensures_bind.mpr
    (ensures_request (changesOwn_of_harmless rfl) (fun read _ => ?_) fun _ _ => trivial))
  cases hloaded : loadRow intent read with
  | outcome outcome => trivial
  | row row prefixLength =>
    obtain rfl : read = some row := loadRow_row hloaded
    exact reconcileRow_ensures sha256Hex rfl

theorem unlicensedChanges_eq_nil (h : (ownership intent).Respected history) : unlicensedChanges history = [] := by
  induction history with
  | nil => rfl
  | cons exchange earlier ih =>
    obtain ⟨hasks, hearlier⟩ := h
    rw [unlicensedChanges, ih hearlier, List.append_nil, List.filter_eq_nil_iff]
    intro name hname
    rw [hasks name (Option.mem_toList.mp hname)]
    decide

/-- Whatever rows and instances there are, if the host's labels are consistent for the row: every `PUT`,
state change, rename and delete of a pass is made on an instance whose document, as the pass read it last, is
labelled managed with the row's container id and the row's server id. -/
theorem pass_changes_only_own_instance (sha256Hex : String → String) (client : Bool)
    (intent : ContainerIntent) (world : History → (call : Call) → call.Answer)
    (hlabelled : (ownership intent).Answered ((reconcile sha256Hex client intent).run world []).1) :
    unlicensedChanges ((reconcile sha256Hex client intent).run world []).1 = [] :=
  unlicensedChanges_eq_nil ((reconcile_ensures sha256Hex client intent).run trivial hlabelled).1

/-! ## Sample passes -/

/-- A running instance with the given labels. -/
def labelledInstance (name containerId serverId : String) : InstanceFull where
  config := [(managedKey, "true"), (containerIdKey, containerId), (serverIdKey, serverId)]
  devices := [("eth0", [("type", "nic"), ("nictype", "bridged")])]
  profiles := []
  name := some name
  status := some "Running"
  state := none

def notFound : StepError := .managed .incusNotFound []

/-- A world of one container row and of fixed instances; what changes something fails. -/
def fixedWorld (row : ContainerRow) (instances : List (String × InstanceFull)) (_ : History) :
    (call : Call) → call.Answer
  | .getInstanceFull name =>
    match instances.lookup name with
    | some document => .ok { document, etag := some "tag" }
    | none => .error notFound
  | .listInstances => .ok (instances.map Prod.snd)
  | .getInstanceState _ => .ok { status := some "Running", startedAt := none, rootUsage := .none }
  | call => storeAnswer row call

/-- The container should be stopped and its instance runs: the pass stops the container's own instance. -/
theorem stop_of_own_instance_licensed :
    let world := fixedWorld { sampleRow with powerIntent := .stopped }
      [(sampleName, labelledInstance sampleName sampleRow.id sampleRow.serverId)]
    let pass := (reconcile id true (sampleIntent .power)).run world []
    pass.1.head?.map (fun exchange => exchange.question.target) = some (some sampleName) ∧
      unlicensedChanges pass.1 = [] :=
  ⟨by decide +kernel, pass_changes_only_own_instance id true (sampleIntent .power) _ (by decide +kernel)⟩

/-- A world whose instance is labelled otherwise once it has been read. -/
def relabelledWorld (row : ContainerRow) (document : InstanceFull) (history : History) : (call : Call) → call.Answer
  | .getInstanceFull name =>
    let own := labelledInstance name row.id row.serverId
    let read := history.any fun exchange => (readIn row exchange).isSome
    .ok { document := if read then document else own, etag := some "tag" }
  | call => fixedWorld row [] history call

/-- An instance of the server that is labelled with another container's id. -/
def otherInstance : InstanceFull :=
  labelledInstance sampleName "55555555-5555-4555-8555-555555555555" sampleRow.serverId

/-- An instance labelled with the container's id and another server's is renamed before its labels are
checked; an instance with the container's name that is labelled with another container's id is stopped by a
delete of the container; and what was read as the container's own is written although it is read as another
container's for the write. -/
theorem foreign_instances_changed :
    unlicensedChanges ((reconcile id true (sampleIntent .update)).run (fixedWorld sampleRow
        [("old", labelledInstance "old" sampleRow.id "44444444-4444-4444-8444-444444444444")]) []).1 =
      ["old"] ∧
    unlicensedChanges ((reconcile id true (sampleIntent .delete)).run (fixedWorld sampleRow
        [(sampleName, otherInstance)]) []).1 = [sampleName] ∧
    unlicensedChanges ((reconcile id true (sampleIntent .update)).run (relabelledWorld sampleRow otherInstance) []).1 =
      [sampleName] := by
  decide +kernel

end Nyabase.Backend
