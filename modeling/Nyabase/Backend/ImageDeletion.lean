import Nyabase.Backend.IncusError
import Nyabase.Lib.Interaction

/-!
# Recorded image deletions

The deletions of `packages/backend/src/images/image-assignment-ops.ts` and the passes of
`image-assignment-reconciler.service.ts` that record them, from the list of images on.  After a delete
`assertImageGone` reads the image once more, and a read that finds it passes like one that does not.
-/

namespace Nyabase.Backend

open Lib List Program

/-- An image of a server's list: `imageFingerprint` and `imageUsedBy`. -/
structure ServerImage where
  fingerprint : Option String
  usedBy : List String

/-- What the store writes at the end of a deletion. -/
inductive ImageRecord where
  | forgetCopy
  | dropAssignment (physicalGone : Bool)
  | dropImage
  deriving DecidableEq

/-- What a pass asks Incus and the store. -/
inductive ImageCall where
  | deleteImage (fingerprint : String)
  | waitOperation
  | getImage (fingerprint : String)
  | findOtherAssignmentHolding
  | findContainerPinnedTo
  | findRemainingAssignment
  | findContainerOfImage
  | copyUnneeded
  | bumpCleanupGeneration
  | record (record : ImageRecord)
  deriving DecidableEq

/-- A delete is answered with whether there is an operation to wait for. -/
def ImageCall.Result : ImageCall → Type
  | waitOperation | getImage _ | bumpCleanupGeneration | record _ => Unit
  | _ => Bool

@[reducible] def ImageCall.Answer (call : ImageCall) : Type := Except StepError call.Result

abbrev ImagePass := Program ImageCall.Answer StepError

namespace ImagePass

def sameFingerprint (actual : Option String) (desired : String) : Bool :=
  actual.any fun actual => lower actual.toList == lower desired.toList

/-- The image of the list with this fingerprint. -/
def held (images : List ServerImage) (fingerprint : String) : Option ServerImage :=
  images.find? fun image => sameFingerprint image.fingerprint fingerprint

def request (call : ImageCall) : ImagePass call.Result := .ask call Program.ofExcept

def requestAndWait (fingerprint : String) : ImagePass Unit := do
  let async ← request (.deleteImage fingerprint)
  Program.when async (request .waitOperation)

def readAfterTimeout (mutate read : ImagePass Unit) : ImagePass Unit :=
  mutate.tryCatch fun error =>
    if error.isTimeoutError || error.isOperationWaitNotFound then read.tryCatch fun _ => throw error
    else throw error

def deleteImageConfirmed (fingerprint : String) : ImagePass Unit :=
  readAfterTimeout (requestAndWait fingerprint) do
    let found ← Program.tryCatch (do request (.getImage fingerprint); return true) fun error =>
      if error.isNotFound then return false else throw error
    if found then throw (.other "IMAGE_DELETE_NOT_CONFIRMED") else return ()

def assertImageGone (fingerprint : String) : ImagePass Unit :=
  Program.tryCatch (request (.getImage fingerprint)) fun error => if error.isNotFound then return () else throw error

def deleteImageCopy (fingerprint : String) : ImagePass Unit := do
  deleteImageConfirmed fingerprint
  assertImageGone fingerprint

def markAssignmentDeleted (physicalGone : Bool) : ImagePass Bool := do
  request (.record (.dropAssignment physicalGone))
  if !physicalGone then return true
  else
    let remaining : Bool ← request .findRemainingAssignment
    if remaining then return true
    else
      let container ← request .findContainerOfImage
      Program.when (!container) (request (.record .dropImage))
      return true

/-- `reconcileDeletion` from where no other image is selected. -/
def deleteManaged (images : List ServerImage) (managed : String) : ImagePass Bool :=
  match held images managed with
  | none => markAssignmentDeleted true
  | some image => do
    let otherAssignment ← request .findOtherAssignmentHolding
    let pinned ← request .findContainerPinnedTo
    if otherAssignment || pinned || !image.usedBy.isEmpty then markAssignmentDeleted false
    else
      deleteImageCopy managed
      request (.record .forgetCopy)
      request .bumpCleanupGeneration
      markAssignmentDeleted true

/-- False when the pass fails because the image is in use. -/
def reconcileDeletion (managed : Option String) (images : List ServerImage) (selected : Option ServerImage) :
    ImagePass Bool :=
  match managed with
  | none => markAssignmentDeleted selected.isNone
  | some managed =>
    if selected.any fun image => !sameFingerprint image.fingerprint managed then
      match held images managed with
      | none => markAssignmentDeleted true
      | some image => if image.usedBy.isEmpty then deleteManaged images managed else return false
    else deleteManaged images managed

/-- False when Incus still uses the image; `serverId` says whether the intent names a server. -/
def deletePhysicalCopy (images : List ServerImage) (serverId : Bool) (fingerprint : String) : ImagePass Bool :=
  match held images fingerprint with
  | none => return true
  | some image =>
    if !image.usedBy.isEmpty then return false
    else do
      deleteImageCopy fingerprint
      Program.when serverId (request (.record .forgetCopy))
      return true

/-- `reconcileImageCleanup` of an image that nothing holds. -/
def reconcileImageCleanup (images : List ServerImage) (serverId : Bool) (fingerprint : Option String) :
    ImagePass Bool := do
  let gone ← match fingerprint with
    | none => pure true
    | some fingerprint => deletePhysicalCopy images serverId fingerprint
  Program.when gone (request (.record .dropImage))
  return gone

def removeCopyIfUnneeded (fingerprint : String) : ImagePass Bool := do
  let unneeded : Bool ← request .copyUnneeded
  if unneeded then
    deleteImageCopy fingerprint
    request (.record .forgetCopy)
    return true
  else return false

end ImagePass

open ImagePass

abbrev ImageHistory := List (Exchange ImageCall.Answer)

/-- The newest read of an image found it. -/
def readFound : ImageHistory → Bool
  | [] => false
  | ⟨.getImage _, answer⟩ :: _ => answer.isOk
  | _ :: earlier => readFound earlier

/-- After a delete a read found the image missing. -/
def ReadMissing (fingerprint : String) (history : ImageHistory) : Prop :=
  ∃ later error earlier, history = later ++ ⟨.getImage fingerprint, .error error⟩ :: earlier ∧
    error.isNotFound = true ∧ ∃ answer, ⟨.deleteImage fingerprint, answer⟩ ∈ earlier

/-- Unless the newest read found it, the image is `absent` from the list or a read found it missing. -/
def ImageSettled (fingerprint : Option String) (absent : Prop) (history : ImageHistory) : Prop :=
  readFound history = false → absent ∨ ∃ name ∈ fingerprint, ReadMissing name history

/-- What says that the image is gone is recorded where that is settled. -/
def recordsSettled (fingerprint : Option String) (absent : Prop) : Contract ImageCall.Answer where
  answers _ _ _ := True
  asks history
    | .record (.dropAssignment false) => True
    | .record _ => ImageSettled fingerprint absent history
    | _ => True

section

variable {fingerprint : Option String} {absent : Prop} {history : ImageHistory} {α : Type}
  {post : ImageHistory → α → Prop}

theorem ImageSettled.cons {exchange : Exchange ImageCall.Answer} (h : ImageSettled fingerprint absent history)
    (hread : readFound (exchange :: history) = readFound history) :
    ImageSettled fingerprint absent (exchange :: history) := by
  intro hfound
  refine (h (hread.symm.trans hfound)).imp_right ?_
  rintro ⟨name, hname, later, error, earlier, rfl, hmissing⟩
  exact ⟨name, hname, _ :: later, error, earlier, rfl, hmissing⟩

theorem request_bind {call : ImageCall} {next : call.Result → ImagePass α}
    (hask : (recordsSettled fingerprint absent).asks history call)
    (hnext : ∀ value, (next value).Promises (recordsSettled fingerprint absent) post (⟨call, .ok value⟩ :: history)) :
    (request call >>= next).Promises (recordsSettled fingerprint absent) post history := by
  refine ensures_bind.mpr ⟨hask, fun answer _ => ?_⟩
  cases answer with
  | error error => trivial
  | ok value => exact hnext value

theorem markAssignmentDeleted_promises {physicalGone : Bool}
    (h : physicalGone = true → ImageSettled fingerprint absent history) :
    (markAssignmentDeleted physicalGone).Promises (recordsSettled fingerprint absent) (fun _ _ => True) history := by
  cases physicalGone with
  | false => exact request_bind trivial fun _ => trivial
  | true =>
    refine request_bind (h rfl) fun _ => request_bind trivial fun (remaining : Bool) => ?_
    refine ensures_ite (fun _ => trivial) fun _ => request_bind trivial fun container => ?_
    cases container with
    | true => trivial
    | false => exact request_bind (.cons (.cons (.cons (h rfl) rfl) rfl) rfl) fun _ => trivial

/-- After `deleteImageCopy` the image is gone, unless its last read found it. -/
theorem deleteImageCopy_promises {name : String} (hname : name ∈ fingerprint) :
    (deleteImageCopy name).Promises (recordsSettled fingerprint absent)
      (fun later _ => ImageSettled fingerprint absent later) history := by
  have hrequest : ∀ call : ImageCall, (∀ record, call ≠ .record record) →
      (request call).Within fun call => ∀ record, call ≠ .record record :=
    fun call hcall => ⟨hcall, within_ofExcept⟩
  have hwithin : (deleteImageConfirmed name).Within fun call => ∀ record, call ≠ .record record := by
    refine .tryCatch (.bind (hrequest _ nofun) fun async => .when _ (hrequest _ nofun)) fun error => ?_
    refine .ite (.tryCatch ?_ fun _ => within_throw _) (within_throw _)
    refine .bind (.tryCatch (.bind (hrequest _ nofun) fun _ => within_pure _) fun error => ?_) fun found => ?_
    · exact .ite (within_pure _) (within_throw _)
    · exact .ite (within_throw _) (within_pure _)
  have hdeleted : (deleteImageConfirmed name).Promises (recordsSettled fingerprint absent)
      (fun later _ => ∃ answer, ⟨.deleteImage name, answer⟩ ∈ later) history := by
    refine ⟨trivial, fun answer _ => ((hwithin.2 answer).ensures ?_ ?_ ⟨answer, mem_cons_self⟩).promises⟩
    · intro history call hcall _
      cases call with
      | record record => exact absurd rfl (hcall record)
      | _ => trivial
    · rintro history call other - ⟨answer, hmem⟩ -
      exact ⟨answer, mem_cons_of_mem _ hmem⟩
  refine hdeleted.bind fun later _ hlater => ⟨trivial, fun answer _ => ?_⟩
  cases answer with
  | ok found => exact nofun
  | error error =>
    exact ensures_ite (fun hmissing _ => .inr ⟨name, hname, [], error, later, rfl, hmissing, hlater⟩) fun _ => trivial

theorem deleteManaged_promises {managed : String} {images : List ServerImage} :
    (deleteManaged images managed).Promises (recordsSettled (some managed) (held images managed = none))
      (fun _ _ => True) history := by
  unfold deleteManaged
  split
  · next hnone => exact markAssignmentDeleted_promises fun _ _ => .inl hnone
  · refine request_bind trivial fun other => request_bind trivial fun pinned => ensures_ite (fun _ => ?_) fun _ => ?_
    · exact markAssignmentDeleted_promises nofun
    · refine (deleteImageCopy_promises rfl).bind fun later _ hlater => request_bind hlater fun _ => ?_
      exact request_bind trivial fun _ => markAssignmentDeleted_promises fun _ => .cons (.cons hlater rfl) rfl

end

/-- The passes that delete an image of this fingerprint, with what `absent` says of the list they read. -/
inductive Deletes (images : List ServerImage) : Option String → Prop → ImagePass Bool → Prop
  | unmanaged (selected : Option ServerImage) :
    Deletes images none (selected = none) (reconcileDeletion none images selected)
  | managed (fingerprint : String) (selected : Option ServerImage) :
    Deletes images (some fingerprint) (held images fingerprint = none)
      (reconcileDeletion (some fingerprint) images selected)
  | cleanup (serverId : Bool) (fingerprint : String) :
    Deletes images (some fingerprint) (held images fingerprint = none)
      (reconcileImageCleanup images serverId (some fingerprint))
  | unneeded (fingerprint : String) : Deletes images (some fingerprint) False (removeCopyIfUnneeded fingerprint)

theorem Deletes.promises {images : List ServerImage} {fingerprint : Option String} {absent : Prop}
    {pass : ImagePass Bool} (h : Deletes images fingerprint absent pass) :
    pass.Promises (recordsSettled fingerprint absent) (fun _ _ => True) [] := by
  cases h with
  | unmanaged selected =>
    exact markAssignmentDeleted_promises fun hnone _ => .inl (Option.isNone_iff_eq_none.mp hnone)
  | managed fingerprint selected =>
    refine ensures_ite (fun _ => ?_) fun _ => deleteManaged_promises
    split
    · next hnone => exact markAssignmentDeleted_promises fun _ _ => .inl hnone
    · exact ensures_ite (fun _ => deleteManaged_promises) fun _ => trivial
  | cleanup serverId fingerprint =>
    have hcopy : (deletePhysicalCopy images serverId fingerprint).Promises
        (recordsSettled (some fingerprint) (held images fingerprint = none)) (fun later gone => gone = true →
          ImageSettled (some fingerprint) (held images fingerprint = none) later) [] := by
      unfold deletePhysicalCopy
      split
      · next hnone => exact fun _ _ => .inl hnone
      · refine ensures_ite (fun _ => nofun) fun _ => (deleteImageCopy_promises rfl).bind fun later _ hlater => ?_
        cases serverId with
        | false => exact fun _ => hlater
        | true => exact request_bind hlater fun _ _ => hlater.cons rfl
    refine hcopy.bind fun later gone hgone => ?_
    cases gone with
    | false => trivial
    | true => exact request_bind (hgone rfl) fun _ => trivial
  | unneeded fingerprint =>
    refine request_bind trivial fun (unneeded : Bool) => ensures_ite (fun _ => ?_) fun _ => trivial
    exact (deleteImageCopy_promises rfl).bind fun later _ hlater => request_bind hlater fun _ => trivial

/-- Whatever Incus answers, a copy is forgotten and a row is dropped as gone only after a read found the image missing
or if it is absent from the list, provided that the newest read did not find it. -/
theorem deletion_recorded_when_settled (world : ImageHistory → (call : ImageCall) → call.Answer)
    {images : List ServerImage} {fingerprint : Option String} {absent : Prop} {pass : ImagePass Bool}
    (hpass : Deletes images fingerprint absent pass) {later earlier : ImageHistory} {record : ImageRecord}
    {answer : (ImageCall.record record).Answer}
    (hrun : (pass.run world []).1 = later ++ ⟨.record record, answer⟩ :: earlier)
    (hgone : record ≠ .dropAssignment false) (hunfound : readFound earlier = false) :
    absent ∨ ∃ name ∈ fingerprint, ReadMissing name earlier := by
  have hanswered : (recordsSettled fingerprint absent).Answered (pass.run world []).1 := by
    induction (pass.run world []).1 with
    | nil => trivial
    | cons exchange earlier ih => exact ⟨trivial, ih⟩
  have hrespected := (Ensures.run hpass.promises trivial hanswered).1
  rw [hrun] at hrespected
  have hasked : (recordsSettled fingerprint absent).asks earlier (.record record) := hrespected.asked
  have hsettled : ImageSettled fingerprint absent earlier := by
    cases record with
    | dropAssignment physicalGone =>
      cases physicalGone with
      | false => exact absurd rfl hgone
      | true => exact hasked
    | forgetCopy | dropImage => exact hasked
  exact hsettled hunfound

/-- Incus deletes at once, and answers every read alike. -/
def answering (read : Except StepError Unit) : ImageHistory → (call : ImageCall) → call.Answer
  | _, .getImage _ => read
  | _, .waitOperation | _, .bumpCleanupGeneration | _, .record _ => .ok ()
  | _, .deleteImage _ | _, .findOtherAssignmentHolding | _, .findContainerPinnedTo | _, .findRemainingAssignment
  | _, .findContainerOfImage | _, .copyUnneeded => .ok false

/-- The image is missing then. -/
def deletedAtOnce := answering (.error (.retryable .incusNotFound []))

/-- The pass up to the read. -/
def readMissing : ImageHistory :=
  [⟨.getImage "f00d", .error (.retryable .incusNotFound [])⟩, ⟨.deleteImage "f00d", .ok false⟩,
    ⟨.findContainerPinnedTo, .ok false⟩, ⟨.findOtherAssignmentHolding, .ok false⟩]

theorem copy_forgotten_when_missing :
    ReadMissing "f00d" readMissing ∧ ∃ later,
      ((reconcileDeletion (some "f00d") [⟨some "f00d", []⟩] none).run deletedAtOnce []).1 =
        later ++ ⟨.record .forgetCopy, .ok ()⟩ :: readMissing := by
  have hrun : ((reconcileDeletion (some "f00d") [⟨some "f00d", []⟩] none).run deletedAtOnce []).1 =
      [⟨.record .dropImage, .ok ()⟩, ⟨.findContainerOfImage, .ok false⟩, ⟨.findRemainingAssignment, .ok false⟩,
        ⟨.record (.dropAssignment true), .ok ()⟩, ⟨.bumpCleanupGeneration, .ok ()⟩] ++
      ⟨.record .forgetCopy, .ok ()⟩ :: readMissing := rfl
  refine ⟨?_, _, hrun⟩
  obtain habsent | ⟨name, hname, hmissing⟩ :=
    deletion_recorded_when_settled deletedAtOnce (.managed "f00d" none) hrun ImageRecord.noConfusion rfl
  · exact absurd habsent (by decide +kernel)
  · cases hname
    exact hmissing

/-- Incus still finds the image. -/
def stillThere := answering (.ok ())

/-- The only read after the delete finds the image; then the copy is forgotten and both rows are dropped. -/
theorem deletion_recorded_though_found :
    ((reconcileDeletion (some "f00d") [⟨some "f00d", []⟩] none).run stillThere []).1.map Exchange.question =
      [.record .dropImage, .findContainerOfImage, .findRemainingAssignment, .record (.dropAssignment true),
        .bumpCleanupGeneration, .record .forgetCopy, .getImage "f00d", .deleteImage "f00d", .findContainerPinnedTo,
        .findOtherAssignmentHolding] ∧
    ∀ history, stillThere history (.getImage "f00d") = .ok () :=
  ⟨by decide +kernel, fun _ => rfl⟩

end Nyabase.Backend
