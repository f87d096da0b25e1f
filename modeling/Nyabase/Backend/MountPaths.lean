import Nyabase.Common.Firewall

/-!
# Where volumes are mounted: `packages/backend/src/volumes/volume-attachments.service.ts`

The schema of a request, the query for a conflicting row and the check of the table each look at a path as a
text.  A request is one transaction: the volumes of a new container are bound in order, and one that is refused
undoes the others.  A request that is refused for anything but its path and its volume changes nothing, so
those checks are left out.
-/

namespace Nyabase.Backend

open Lib Common

structure AttachVolumeRequest where
  volumeId : String
  containerPath : String

/-- A row of `control.volume_attachments`. -/
structure AttachmentRow where
  containerId : String
  volumeId : String
  containerPath : String

/-- `value.length`, in UTF-16 code units. -/
def utf16Length (text : List Char) : Nat := (text.map fun c => if c.toNat < 0x10000 then 1 else 2).sum

def hasControl (path : List Char) : Bool := path.any fun c => c == '\x00' || c == '\r' || c == '\n'

def zContainerPath (text : String) : Option String :=
  let value := trimBy isJsWhitespace text.toList
  if 2 ≤ utf16Length value ∧ utf16Length value ≤ 4096 ∧ value.head? = some '/' ∧ value ≠ ['/'] ∧
      (∀ part ∈ value.splitOn '/', part ≠ ['.'] ∧ part ≠ ['.', '.']) ∧ hasControl value = false ∧
      isForbiddenContainerMountPath (String.ofList value) = false then
    some (String.ofList value)
  else none

/-- `volume_attachments_path_check`. -/
def pathCheck (path : List Char) : Bool :=
  path.head? == some '/' && path != ['/'] && !hasControl path && !(["proc", "sys", "dev"].any fun root =>
      ((path.dropWhile fun c => c == '/').splitOn '/').head? == some root.toList)

def bindAttachmentRow (containerId : String) (rows : List AttachmentRow) (input : AttachVolumeRequest) :
    Option (List AttachmentRow) := do
  let containerPath ← zContainerPath input.containerPath
  if pathCheck containerPath.toList ∧ ∀ row ∈ rows, row.containerId = containerId →
      row.volumeId ≠ input.volumeId ∧ row.containerPath ≠ containerPath then
    some (rows ++ [{ containerId, volumeId := input.volumeId, containerPath }])
  else none

inductive MountRequest where
  /-- An attachment, or those of a new container. -/
  | bind (containerId : String) (volumes : List AttachVolumeRequest)
  | detach (containerId volumeId : String)
  | delete (containerId : String)

def MountRequest.volumes : MountRequest → List AttachVolumeRequest
  | .bind _ volumes => volumes
  | _ => []

def MountRequest.commit (rows : List AttachmentRow) : MountRequest → List AttachmentRow
  | .bind containerId volumes => (volumes.foldlM (bindAttachmentRow containerId) rows).getD rows
  | .detach containerId volumeId => rows.filter fun row => row.containerId != containerId || row.volumeId != volumeId
  | .delete containerId => rows.filter fun row => row.containerId != containerId

/-- The rows after the requests. -/
def attachmentsAfter (requests : List MountRequest) : List AttachmentRow := requests.foldl MountRequest.commit []

/-- The directory a path names: without repeated and trailing slashes. -/
def mountPoint (path : String) : List Char :=
  '/' :: ['/'].intercalate ((path.toList.splitOn '/').filter fun part => part != [])

/-! ## What is accepted -/

theorem zContainerPath_eq_some {text path : String} (h : zContainerPath text = some path) :
    path.toList ≠ ['/'] ∧ mountPoint path = normalizedContainerPath path ∧
      isForbiddenContainerMountPath path = false := by
  obtain ⟨⟨-, -, -, hroot, hdots, -, hallowed⟩, rfl⟩ := of_guard h
  refine ⟨by simpa using hroot, ?_, hallowed⟩
  rw [mountPoint, normalizedContainerPath, String.toList_ofList, List.filter_congr]
  intro part hpart
  simp [(hdots part hpart).1]

/-- The rows have paths from these texts, and no two rows of a container have one path. -/
structure Mounted (Written : String → Prop) (rows : List AttachmentRow) : Prop where
  accepted : ∀ row ∈ rows, ∃ text, Written text ∧ zContainerPath text = some row.containerPath
  apart : rows.Pairwise fun left right =>
    left.containerId = right.containerId → left.containerPath ≠ right.containerPath

variable {Written : String → Prop} {rows next : List AttachmentRow}

section

variable (h : Mounted Written rows)

include h

theorem Mounted.filter (keep : AttachmentRow → Bool) : Mounted Written (rows.filter keep) where
  accepted row hrow := h.accepted row (List.mem_of_mem_filter hrow)
  apart := h.apart.filter _

theorem Mounted.bindAttachmentRow {containerId : String} {input : AttachVolumeRequest}
    (hwritten : Written input.containerPath) (hbind : bindAttachmentRow containerId rows input = some next) :
    Mounted Written next := by
  obtain ⟨path, hpath, hbind⟩ := Option.bind_eq_some_iff.mp hbind
  obtain ⟨⟨-, hfree⟩, rfl⟩ := of_guard hbind
  constructor
  · intro row hrow
    obtain hrow | rfl := by simpa using hrow
    · exact h.accepted row hrow
    · exact ⟨_, hwritten, hpath⟩
  · rw [List.pairwise_append]
    refine ⟨h.apart, List.pairwise_singleton _ _, ?_⟩
    rintro row hrow _ hnew hsame
    obtain rfl := List.mem_singleton.mp hnew
    exact (hfree row hrow hsame).2

theorem Mounted.foldlM {containerId : String} {volumes : List AttachVolumeRequest}
    (hwritten : ∀ input ∈ volumes, Written input.containerPath)
    (hbind : volumes.foldlM (Backend.bindAttachmentRow containerId) rows = some next) : Mounted Written next := by
  induction volumes generalizing rows with
  | nil =>
    obtain rfl := Option.some.inj hbind
    exact h
  | cons input volumes ih =>
    obtain ⟨hinput, hvolumes⟩ := List.forall_mem_cons.mp hwritten
    obtain ⟨mid, hfirst, hrest⟩ := Option.bind_eq_some_iff.mp hbind
    exact ih (h.bindAttachmentRow hinput hfirst) hvolumes hrest

theorem Mounted.commit {request : MountRequest}
    (hwritten : ∀ input ∈ request.volumes, Written input.containerPath) : Mounted Written (request.commit rows) := by
  cases request with
  | bind containerId volumes =>
    rw [MountRequest.commit]
    cases hbind : volumes.foldlM (Backend.bindAttachmentRow containerId) rows with
    | none => exact h
    | some bound => exact h.foldlM hwritten hbind
  | detach containerId volumeId => exact h.filter _
  | delete containerId => exact h.filter _

end

/-- With paths that are written without repeated and trailing slashes, the mount points of a container differ,
and none of them is the root or under a forbidden root. -/
theorem mount_points_distinct_and_safe (requests : List MountRequest)
    (hplain : ∀ request ∈ requests, ∀ input ∈ request.volumes,
      ∀ path ∈ zContainerPath input.containerPath, mountPoint path = path.toList) :
    ((attachmentsAfter requests).Pairwise fun left right =>
      left.containerId = right.containerId → mountPoint left.containerPath ≠ mountPoint right.containerPath) ∧
    ∀ row ∈ attachmentsAfter requests, mountPoint row.containerPath ≠ ['/'] ∧
      ∀ root ∈ forbiddenContainerMountRoots, mountPoint row.containerPath ≠ root.toList ∧
        ¬(root.toList ++ ['/']) <+: mountPoint row.containerPath := by
  have hmounted : Mounted (fun text => ∀ path ∈ zContainerPath text, mountPoint path = path.toList)
      (attachmentsAfter requests) :=
    List.foldlRecOn _ _ ⟨by simp, .nil⟩ fun rows hrows request hrequest => hrows.commit (hplain request hrequest)
  have hwritten : ∀ row ∈ attachmentsAfter requests, mountPoint row.containerPath = row.containerPath.toList := by
    intro row hrow
    obtain ⟨text, hplain, haccepted⟩ := hmounted.accepted row hrow
    exact hplain _ haccepted
  constructor
  · refine hmounted.apart.imp_of_mem fun hleft hright hapart hsame hmount => hapart hsame ?_
    rw [hwritten _ hleft, hwritten _ hright] at hmount
    exact String.toList_inj.mp hmount
  intro row hrow
  obtain ⟨text, -, haccepted⟩ := hmounted.accepted row hrow
  obtain ⟨hroot, hnormalized, hallowed⟩ := zContainerPath_eq_some haccepted
  refine ⟨by rwa [hwritten row hrow], ?_⟩
  rw [hnormalized]
  simpa [isForbiddenContainerMountPath] using hallowed

def attachTo (paths : List String) : List MountRequest :=
  [.bind "box" (paths.map fun path => { volumeId := path, containerPath := path })]

theorem plain_paths_mounted : attachmentsAfter (attachTo ["/data", "/srv"]) ≠ [] ∧
    (attachmentsAfter (attachTo ["/data", "/srv"])).Pairwise fun left right =>
      left.containerId = right.containerId → mountPoint left.containerPath ≠ mountPoint right.containerPath :=
  ⟨by decide +kernel, (mount_points_distinct_and_safe _ (by decide +kernel)).1⟩

/-- Two spellings of one directory, and one of the root. -/
theorem spellings_share_mount_point : ∃ rows, attachmentsAfter (attachTo ["/data", "/data/", "//"]) = rows ∧
    rows.map (fun row => (row.containerId, mountPoint row.containerPath)) =
      [("box", "/data".toList), ("box", "/data".toList), ("box", "/".toList)] :=
  ⟨_, rfl, by decide +kernel⟩

end Nyabase.Backend
