import Mathlib.Algebra.Order.BigOperators.Group.Finset
import Nyabase.Lib.Transition

/-!
# The byte totals of a status report: `register_connection`, `unregister_connection` and `status_report`

A report adds the bytes of the connections it lists to the counters of the closed ones.  The listing is one section
under the lock of the connections and so is an unregistration, whose guard lives to the end of its `if let`; the two
counters are read after the listing, one by one and without the lock.  Relays may record bytes of a connection that
is no longer registered.  No counter comes to `2 ^ 64`.
-/

namespace Nyabase.SshProxy

open Lib Finset

inductive Direction where
  | fromClient
  | toClient
  deriving DecidableEq

/-- The totals of a report, and what had been transferred when it was finished. -/
structure ByteReport where
  totals : Direction → Nat
  transferred : Direction → Nat

inductive ReportPoint where
  | idle
  | listed (bytes : Direction → Nat)
  | fromClientRead (bytes : Direction → Nat) (fromClient : Nat)

/-- `sequence` connections were accepted; `bytes` are the counters of each of them and `closed` those of the proxy. -/
structure ByteWorld where
  sequence : Nat
  registered : Finset Nat
  bytes : Nat → Direction → Nat
  closed : Direction → Nat
  report : ReportPoint
  reports : List ByteReport

inductive ByteLabel where
  | register
  | transfer (id : Nat) (direction : Direction) (count : Nat)
  | unregister (id : Nat)
  /-- The reporting task goes on to its next step. -/
  | status

namespace ByteWorld

def initial : ByteWorld := ⟨0, ∅, fun _ _ => 0, fun _ => 0, .idle, []⟩

def listing (world : ByteWorld) (direction : Direction) : Nat := ∑ id ∈ world.registered, world.bytes id direction

def transferred (world : ByteWorld) (direction : Direction) : Nat :=
  ∑ id ∈ range world.sequence, world.bytes id direction

def statusReport (world : ByteWorld) : ByteWorld :=
  match world.report with
  | .idle => { world with report := .listed world.listing }
  | .listed bytes =>
    { world with report := .fromClientRead bytes (bytes .fromClient + world.closed .fromClient) }
  | .fromClientRead bytes fromClient =>
    let totals : Direction → Nat
      | .fromClient => fromClient
      | .toClient => bytes .toClient + world.closed .toClient
    { world with report := .idle, reports := ⟨totals, world.transferred⟩ :: world.reports }

def step (world : ByteWorld) : ByteLabel → Option ByteWorld
  | .register =>
    some { world with sequence := world.sequence + 1, registered := insert world.sequence world.registered }
  | .transfer id direction count =>
    if id < world.sequence then
      some { world with
        bytes := fun other way => world.bytes other way + if other = id ∧ way = direction then count else 0 }
    else none
  | .unregister id =>
    if id ∈ world.registered then
      some { world with
        registered := world.registered.erase id
        closed := fun direction => world.closed direction + world.bytes id direction }
    else some world
  | .status => some world.statusReport

/-- A step in which no connection is unregistered between the listing of a report and its end. -/
def quietStep (world : ByteWorld) : ByteLabel → Option ByteWorld
  | .unregister id =>
    match world.report with
    | .idle => world.step (.unregister id)
    | _ => none
  | label => world.step label

/-! ## The invariant -/

variable {world next : ByteWorld}

/-- What was listed against what is there now, and the reports before. -/
def Listed (world : ByteWorld) (bytes : Direction → Nat) : Prop :=
  ∀ direction, bytes direction ≤ world.listing direction ∧
    ∀ earlier ∈ world.reports, earlier.totals direction ≤ bytes direction + world.closed direction

/-- While no connection is unregistered, the counters stay as they are under a report. -/
def PointInv (world : ByteWorld) : ReportPoint → Prop
  | .idle => world.Listed world.listing
  | .listed bytes => world.Listed bytes
  | .fromClientRead bytes fromClient => world.Listed bytes ∧ fromClient = bytes .fromClient + world.closed .fromClient

structure Inv (world : ByteWorld) : Prop where
  known : world.registered ⊆ range world.sequence
  closed : ∀ direction,
    world.closed direction ≤ ∑ id ∈ range world.sequence \ world.registered, world.bytes id direction
  point : world.PointInv world.report
  growing : world.reports.Pairwise fun later earlier => ∀ direction, earlier.totals direction ≤ later.totals direction
  bounded : ∀ report ∈ world.reports, ∀ direction, report.totals direction ≤ report.transferred direction

theorem Inv.finished {bytes totals : Direction → Nat} (h : world.Inv) (hlisted : world.Listed bytes)
    (htotals : ∀ direction, totals direction = bytes direction + world.closed direction) :
    { world with report := .idle, reports := ⟨totals, world.transferred⟩ :: world.reports }.Inv := by
  have hcurrent : ∀ direction, totals direction ≤ world.listing direction + world.closed direction := by
    intro direction
    rw [htotals]
    exact Nat.add_le_add_right (hlisted direction).1 _
  refine ⟨h.known, h.closed, fun direction => ⟨le_rfl, ?_⟩, ?_, ?_⟩
  · refine List.forall_mem_cons.mpr ⟨hcurrent direction, fun earlier hearlier => ?_⟩
    exact ((hlisted direction).2 earlier hearlier).trans (Nat.add_le_add_right (hlisted direction).1 _)
  · refine List.pairwise_cons.mpr ⟨fun earlier hearlier direction => ?_, h.growing⟩
    show _ ≤ totals direction
    rw [htotals]
    exact (hlisted direction).2 earlier hearlier
  · refine List.forall_mem_cons.mpr ⟨fun direction => (hcurrent direction).trans ?_, h.bounded⟩
    -- the registered connections and the others are all that were accepted
    have hsum := sum_sdiff (f := fun id => world.bytes id direction) h.known
    have hclosed := h.closed direction
    show _ ≤ world.transferred direction
    unfold listing transferred
    omega

theorem Inv.statusReport (h : world.Inv) : world.statusReport.Inv := by
  have hpoint := h.point
  unfold ByteWorld.statusReport
  split
  · rename_i hreport
    rw [hreport] at hpoint
    exact { h with point := hpoint }
  · rename_i bytes hreport
    rw [hreport] at hpoint
    exact { h with point := ⟨hpoint, rfl⟩ }
  · rename_i bytes fromClient hreport
    rw [hreport] at hpoint
    refine h.finished hpoint.1 fun direction => ?_
    cases direction
    · exact hpoint.2
    · rfl

theorem Inv.unregister {id : Nat} (h : world.Inv) (hidle : world.report = .idle)
    (hstep : world.step (.unregister id) = some next) : next.Inv := by
  simp only [step] at hstep
  split at hstep
  · rename_i hid
    cases hstep
    refine ⟨(erase_subset _ _).trans h.known, fun direction => ?_, ?_, h.growing, h.bounded⟩
    · show _ ≤ ∑ other ∈ range world.sequence \ world.registered.erase id, world.bytes other direction
      rw [sdiff_erase (h.known hid), sum_insert (fun hmem => (mem_sdiff.mp hmem).2 hid), Nat.add_comm]
      exact Nat.add_le_add_right (h.closed direction) _
    · -- its bytes leave the listing and come to the counters
      have hpoint := h.point
      rw [hidle] at hpoint
      rw [hidle]
      intro direction
      refine ⟨le_rfl, fun earlier hearlier => ?_⟩
      have hbefore := (hpoint direction).2 earlier hearlier
      have hsum := add_sum_erase world.registered (fun id => world.bytes id direction) hid
      simp only [listing] at hbefore ⊢
      omega
  · cases hstep
    exact h

/-- New connections and further bytes. -/
theorem Inv.grown {sequence : Nat} {registered : Finset Nat} {bytes : Nat → Direction → Nat} (h : world.Inv)
    (hknown : registered ⊆ range sequence) (hregistered : world.registered ⊆ registered)
    (hclosed : range world.sequence \ world.registered ⊆ range sequence \ registered)
    (hbytes : ∀ id direction, world.bytes id direction ≤ bytes id direction) :
    { world with sequence, registered, bytes }.Inv := by
  have hsum : ∀ {ids more : Finset Nat}, ids ⊆ more → ∀ direction,
      ∑ id ∈ ids, world.bytes id direction ≤ ∑ id ∈ more, bytes id direction := fun hsub direction =>
    (sum_le_sum_of_subset hsub).trans (sum_le_sum fun id _ => hbytes id direction)
  have hlisted : ∀ {found : Direction → Nat}, world.Listed found →
      { world with sequence, registered, bytes }.Listed found := fun hfound direction =>
    ⟨(hfound direction).1.trans (hsum hregistered direction), (hfound direction).2⟩
  refine { h with
    known := hknown
    closed := fun direction => (h.closed direction).trans (hsum hclosed direction)
    point := ?_ }
  have hpoint := h.point
  show PointInv _ world.report
  cases hreport : world.report with
  | idle =>
    rw [hreport] at hpoint
    intro direction
    refine ⟨le_rfl, fun earlier hearlier => ((hpoint direction).2 earlier hearlier).trans ?_⟩
    exact Nat.add_le_add_right (hsum hregistered direction) _
  | listed found =>
    rw [hreport] at hpoint
    exact hlisted hpoint
  | fromClientRead found fromClient =>
    rw [hreport] at hpoint
    exact ⟨hlisted hpoint.1, hpoint.2⟩

theorem Inv.quietStep {label : ByteLabel} (h : world.Inv) (hstep : world.quietStep label = some next) : next.Inv := by
  cases label with
  | register =>
    cases hstep
    refine h.grown ?_ (subset_insert _ _) ?_ fun _ _ => le_rfl
    · rw [range_add_one]
      exact insert_subset_insert _ h.known
    · intro id hid
      simp only [mem_sdiff, mem_range, mem_insert, not_or] at hid ⊢
      exact ⟨by omega, by omega, hid.2⟩
  | transfer id direction count =>
    obtain ⟨-, rfl⟩ := of_guard hstep
    exact h.grown h.known subset_rfl subset_rfl fun _ _ => Nat.le_add_right _ _
  | unregister id =>
    simp only [ByteWorld.quietStep] at hstep
    split at hstep
    · rename_i hidle
      exact h.unregister hidle hstep
    · cases hstep
  | status =>
    cases hstep
    exact h.statusReport

/-- In every run in which no connection is unregistered while a report is under way, the totals of the reports never
decrease, in neither direction, and never exceed the bytes that had been transferred. -/
theorem report_totals_monotone (labels : List ByteLabel) (last : ByteWorld)
    (hrun : run ByteWorld.quietStep initial labels = some last) :
    (last.reports.Pairwise fun later earlier => ∀ direction, earlier.totals direction ≤ later.totals direction) ∧
      ∀ report ∈ last.reports, ∀ direction, report.totals direction ≤ report.transferred direction := by
  have hinitial : initial.Inv := by
    exact ⟨empty_subset _, fun _ => Nat.zero_le _, fun _ => ⟨le_rfl, nofun⟩, .nil, nofun⟩
  have hlast : last.Inv := run_invariant (fun _ _ _ h hstep => Inv.quietStep h hstep) hinitial hrun
  exact ⟨hlast.growing, hlast.bounded⟩

/-- The bytes from clients that were reported and that had been transferred, newest report first. -/
def reported (world : ByteWorld) : List (Nat × Nat) :=
  world.reports.map fun report => (report.totals .fromClient, report.transferred .fromClient)

/-- One connection that sends a hundred bytes. -/
def oneConnection : List ByteLabel := [.register, .transfer 0 .fromClient 100]

/-- It is reported, is unregistered between two reports, and is reported again. -/
def quietReports : List ByteLabel :=
  oneConnection ++ [.status, .status, .status, .unregister 0, .status, .status, .status]

theorem quiet_reports_bounded :
    ∃ last, run ByteWorld.quietStep initial quietReports = some last ∧ last.reported = [(100, 100), (100, 100)] ∧
      (last.reports.Pairwise fun later earlier => ∀ direction, earlier.totals direction ≤ later.totals direction) ∧
      ∀ report ∈ last.reports, ∀ direction, report.totals direction ≤ report.transferred direction :=
  ⟨_, rfl, rfl, report_totals_monotone quietReports _ rfl⟩

/-- The connection is unregistered after it was listed: it is counted twice, and the next report has fewer bytes. -/
theorem unregistered_connection_counted_twice :
    (run step initial (oneConnection ++ [.status, .unregister 0, .status, .status, .status, .status, .status])).map
      reported = some [(100, 100), (200, 100)] := by
  decide +kernel

end ByteWorld

end Nyabase.SshProxy
