import Nyabase.SshProxy.HistoryOutbox

/-!
# History frames after a failed store

`SshHistoryService.ingest` of `packages/backend/src/ssh/ssh-history.service.ts` at the other end of the link, which
delivers in order.  After a store that failed, frames are refused until one begins no later than the failed one.
The record it began with may have left the outbox by then: an overflow dropped it, or an earlier copy of the frame
was stored and its acknowledgement came late.  Then the link stays blocked.
-/

namespace Nyabase.SshProxy

open Lib List Prod HistoryLog

/-- The numbers of the records of a frame.  No operation reads whether it was the first of a pass and which records
were pending when it was sent. -/
structure HistoryFrame where
  seqs : List Nat
  front : Bool
  pending : List Nat
  deriving DecidableEq

/-- `firstSeq` of `parseHistoryRecords`; the numbers stay below 2^53. -/
def HistoryFrame.firstSeq (frame : HistoryFrame) : Nat := frame.seqs.min?.getD 0

def HistoryFrame.lastSeq (frame : HistoryFrame) : Nat := frame.seqs.max?.getD 0

/-- The outbox, what is under way on its link and the `resendFrom` of the link. -/
structure IngestWorld (ρ : Type) where
  outbox : HistoryWorld ρ
  frames : List HistoryFrame
  acks : List Nat
  resendFrom : Option Nat

/-- The frame is no `zSshProxyHistoryFrame`, or its transaction commits or fails. -/
inductive FrameOutcome where
  | invalid
  | committed
  | failed

inductive IngestEvent (ρ : Type) where
  | proxy (event : HistoryEvent ρ)
  | readAck
  | ingest (outcome : FrameOutcome)

namespace IngestWorld

variable {ρ : Type} (encode : Nat → HistoryRecord ρ → String)

def init (now : Nat) : IngestWorld ρ := ⟨HistoryWorld.init now, [], [], none⟩

/-- `ingest` hands the frame to the store. -/
def handed (world : IngestWorld ρ) (frame : HistoryFrame) : Bool :=
  match world.resendFrom with
  | none => true
  | some seq => !decide (seq < frame.firstSeq)

/-- `ingest` of a frame that the link has delivered. -/
def ingest (world : IngestWorld ρ) (frame : HistoryFrame) (outcome : FrameOutcome) : IngestWorld ρ :=
  match outcome, world.handed frame with
  | .invalid, _ | _, false => world
  | .committed, true => { world with resendFrom := none, acks := world.acks ++ [frame.lastSeq] }
  | .failed, true => { world with resendFrom := some frame.firstSeq }

/-- A step of the proxy, the arrival of an acknowledgement, or the work on a frame. -/
def step (world : IngestWorld ρ) : IngestEvent ρ → Option (IngestWorld ρ)
  | .proxy .connect => (world.outbox.step encode .connect).map fun outbox => ⟨outbox, [], [], none⟩
  | .proxy .sendFrame =>
    (world.outbox.step encode .sendFrame).map fun outbox =>
      let sent := world.outbox.link.getD 0
      { world with
        outbox
        frames := world.frames ++
          [⟨(world.outbox.log.frame sent).map fst, sent == 0, world.outbox.log.pending.map fst⟩] }
  | .proxy (.acknowledge _) => none
  | .proxy event => (world.outbox.step encode event).map fun outbox => { world with outbox }
  | .readAck =>
    match world.acks with
    | [] => none
    | seq :: acks => (world.outbox.step encode (.acknowledge seq)).map fun outbox => { world with outbox, acks }
  | .ingest outcome =>
    match world.frames with
    | [] => none
    | frame :: frames => some (ingest { world with frames } frame outcome)

end IngestWorld

variable {ρ : Type} {encode : Nat → HistoryRecord ρ → String}

/-- A frame that is the first of a pass begins no later than this record exactly if the record was pending. -/
def HistoryFrame.Begins (frame : HistoryFrame) (seq : Nat) : Prop :=
  frame.front = true → (frame.firstSeq ≤ seq ↔ seq ∈ frame.pending)

structure FrontInv (world : IngestWorld ρ) : Prop where
  outbox : OutboxInv world.outbox
  resend : ∀ seq, world.resendFrom = some seq →
    seq < world.outbox.log.nextSeq ∧ ∀ frame ∈ world.frames, frame.Begins seq
  used : ∀ frame ∈ world.frames, frame.firstSeq < world.outbox.log.nextSeq
  sent : world.frames.Pairwise fun earlier later => later.Begins earlier.firstSeq

section

variable {log : HistoryLog ρ} {frame : HistoryFrame} {sent : Nat} {last : Nat × String}

theorem HistoryLog.firstSeq_spec (frame : HistoryFrame) (hlast : (log.frame sent).getLast? = some last)
    (hseqs : frame.seqs = (log.frame sent).map fst) :
    frame.firstSeq ∈ log.pending.map fst ∧ ∀ entry ∈ log.frame sent, frame.firstSeq ≤ entry.1 := by
  have hmem : last.1 ∈ frame.seqs := hseqs ▸ mem_map_of_mem (mem_of_getLast? hlast)
  obtain ⟨low, hlow⟩ := Option.isSome_iff_exists.mp (isSome_min?_of_mem hmem)
  rw [HistoryFrame.firstSeq, hlow, Option.getD_some]
  rw [hseqs, min?_eq_some_iff] at hlow
  exact ⟨map_subset fst (frame_subset log sent) hlow.1, fun entry hentry => hlow.2 _ (mem_map_of_mem hentry)⟩

theorem LogShape.firstSeq_le_iff (h : LogShape log) (hlast : (log.frame 0).getLast? = some last)
    (hseqs : frame.seqs = (log.frame 0).map fst) {seq : Nat} (hseq : seq < log.nextSeq) :
    frame.firstSeq ≤ seq ↔ seq ∈ log.pending.map fst := by
  obtain ⟨-, -, hcovered, -⟩ := h.frame_bounds hlast
  obtain ⟨hfirst, hlow⟩ := firstSeq_spec frame hlast hseqs
  constructor
  · intro hle
    obtain ⟨before, hbefore⟩ := h.newest
    have hsorted : (log.pushed.map fst).Pairwise (· < ·) := h.numbered ▸ pairwise_lt_range'
    have hpushed : seq ∈ log.pushed.map fst := by
      have hpositive := (h.below _ (mem_append_right _ hfirst)).1
      rw [h.numbered, mem_range'_1]
      omega
    rw [← hbefore] at hsorted hpushed
    refine (mem_append.mp hpushed).resolve_left fun hold => ?_
    have hlt := (pairwise_append.mp hsorted).2.2 seq hold _ hfirst
    omega
  · intro hpending
    obtain ⟨entry, hentry, rfl⟩ := mem_map.mp hpending
    have hpositive := (h.pending_below hentry).1
    by_cases hle : entry.1 ≤ last.1
    · rcases hcovered entry hentry hle with hzero | hin
      · omega
      · exact hlow entry hin
    · have hlast := hlow last (mem_of_getLast? hlast)
      omega

end

theorem HistoryWorld.nextSeq_mono {world next : HistoryWorld ρ} {event : HistoryEvent ρ}
    (hstep : world.step encode event = some next) : world.log.nextSeq ≤ next.log.nextSeq := by
  have hroll : ∀ now, world.log.nextSeq ≤ (world.log.rollRefusals encode now).nextSeq := by
    intro now
    rcases rollRefusals_cases encode world.log now with hnext | hnext <;> grind [hnext.nextSeq]
  cases event with
  | record entry =>
    cases hstep
    exact (pushed_push encode world.log (.session entry)).nextSeq ▸ Nat.le_succ _
  | refuse ip reason now | flushRefusals now =>
    cases hstep
    exact hroll now
  | connect | loseLink | resend | sendFrame | acknowledge =>
    grind [HistoryWorld.step, HistoryLog.acknowledge, Option.map_eq_some_iff]

variable {world next : IngestWorld ρ}

theorem FrontInv.moved {outbox : HistoryWorld ρ} {event : HistoryEvent ρ} (h : FrontInv world)
    (hstep : world.outbox.step encode event = some outbox) : FrontInv { world with outbox } where
  outbox := h.outbox.step encode hstep
  resend := fun seq hseq => (h.resend seq hseq).imp_left (lt_of_lt_of_le · (HistoryWorld.nextSeq_mono hstep))
  used := fun frame hframe => (h.used frame hframe).trans_le (HistoryWorld.nextSeq_mono hstep)
  sent := h.sent

/-- The frame that is sent begins as the first of a pass has to. -/
theorem FrontInv.sendFrame {sent last : Nat} {texts : List String} (h : FrontInv world)
    (hbatch : world.outbox.log.nextBatch sent = some (last, texts)) : FrontInv { world with
      frames := world.frames ++
        [⟨(world.outbox.log.frame sent).map fst, sent == 0, world.outbox.log.pending.map fst⟩] } := by
  obtain ⟨entry, hentry, -⟩ := nextBatch_eq_some hbatch
  generalize hframe : HistoryFrame.mk _ _ _ = frame
  have hbegins : ∀ seq < world.outbox.log.nextSeq, frame.Begins seq := by
    subst hframe
    intro seq hseq hzero
    obtain rfl := beq_iff_eq.mp hzero
    exact h.outbox.shape.firstSeq_le_iff hentry rfl hseq
  have hfirst := (firstSeq_spec frame hentry (hframe ▸ rfl)).1
  refine ⟨h.outbox, ?_, ?_, ?_⟩
  · intro seq hseq
    obtain ⟨hused, hframes⟩ := h.resend seq hseq
    exact ⟨hused, forall_mem_append.mpr ⟨hframes, forall_mem_singleton.mpr (hbegins seq hused)⟩⟩
  · exact forall_mem_append.mpr ⟨h.used, forall_mem_singleton.mpr
      (h.outbox.shape.below _ (mem_append_right _ hfirst)).2⟩
  · rw [pairwise_append]
    exact ⟨h.sent, pairwise_singleton _ _, fun earlier hearlier =>
      forall_mem_singleton.mpr (hbegins _ (h.used earlier hearlier))⟩

theorem FrontInv.ingest {frame : HistoryFrame} {frames : List HistoryFrame} (h : FrontInv world)
    (hframes : world.frames = frame :: frames) (outcome : FrameOutcome) :
    FrontInv (({ world with frames } : IngestWorld ρ).ingest frame outcome) := by
  obtain ⟨houtbox, hresend, hused, hsent⟩ := h
  rw [hframes] at hresend
  rw [hframes, forall_mem_cons] at hused
  rw [hframes, pairwise_cons] at hsent
  fun_cases IngestWorld.ingest _ frame outcome with
  | case1 | case2 =>
    exact ⟨houtbox, fun seq hseq => (hresend seq hseq).imp_right fun hall => (forall_mem_cons.mp hall).2,
      hused.2, hsent.2⟩
  | case3 => exact ⟨houtbox, nofun, hused.2, hsent.2⟩
  | case4 =>
    refine ⟨houtbox, ?_, hused.2, hsent.2⟩
    rintro seq ⟨⟩
    exact ⟨hused.1, hsent.1⟩

theorem FrontInv.step {event : IngestEvent ρ} (h : FrontInv world)
    (hstep : world.step encode event = some next) : FrontInv next := by
  revert hstep
  fun_cases IngestWorld.step encode world event with
  | case1 =>
    intro hstep
    obtain ⟨outbox, houtbox, rfl⟩ := Option.map_eq_some_iff.mp hstep
    exact ⟨h.outbox.step encode houtbox, nofun, nofun, .nil⟩
  | case2 =>
    intro hstep
    obtain ⟨outbox, houtbox, rfl⟩ := Option.map_eq_some_iff.mp hstep
    have hnext := h.outbox.step encode houtbox
    simp only [HistoryWorld.step] at houtbox
    split at houtbox
    · cases houtbox
    next sent hlink =>
    obtain ⟨batch, hbatch, rfl⟩ := Option.map_eq_some_iff.mp houtbox
    rw [hlink, Option.getD_some]
    exact { h.sendFrame hbatch with outbox := hnext }
  | case4 =>
    intro hstep
    obtain ⟨outbox, houtbox, rfl⟩ := Option.map_eq_some_iff.mp hstep
    exact h.moved houtbox
  | case6 =>
    intro hstep
    obtain ⟨outbox, houtbox, rfl⟩ := Option.map_eq_some_iff.mp hstep
    exact { h.moved houtbox with }
  | case8 outcome frame frames hframes =>
    rintro ⟨⟩
    exact h.ingest hframes outcome
  | _ => rintro ⟨⟩

/-- The first frame of a pass is handed to the store exactly if the record that `resendFrom` names was still pending
when it was sent. -/
theorem resent_frame_handed {now : Nat} {events : List (IngestEvent ρ)} {world : IngestWorld ρ}
    {frame : HistoryFrame} {frames : List HistoryFrame}
    (hrun : run (IngestWorld.step encode) (IngestWorld.init now) events = some world)
    (hnext : world.frames = frame :: frames) (hfront : frame.front = true) :
    world.handed frame = true ↔ ∀ seq, world.resendFrom = some seq → seq ∈ frame.pending := by
  have h : FrontInv world := by
    refine run_invariant (fun _ _ _ hinv hstep => FrontInv.step hinv hstep) ⟨outboxInv_init now, ?_, ?_, .nil⟩ hrun <;>
      simp [IngestWorld.init]
  unfold IngestWorld.handed
  split
  · next hnone => simp [hnone]
  · next seq hseq =>
    have hbegins := (h.resend seq hseq).2 frame (hnext ▸ mem_cons_self) hfront
    simp [hseq, hbegins]

/-- A frame whose store failed is sent again. -/
def failedStoreEvents : List (IngestEvent Unit) :=
  [.proxy (.record ()), .proxy .connect, .proxy .sendFrame, .ingest .failed, .proxy .resend, .proxy .sendFrame]

theorem failed_frame_handed_again : ∃ world,
    run (IngestWorld.step fun _ _ => "record") (IngestWorld.init 0) failedStoreEvents = some world ∧
      world.resendFrom = some 1 ∧ world.handed ⟨[1], true, [1]⟩ = true := by
  have hend : (run (IngestWorld.step fun _ _ => "record") (IngestWorld.init 0) failedStoreEvents).map
      (fun world => (world.frames, world.resendFrom)) = some ([⟨[1], true, [1]⟩], some 1) := by decide +kernel
  obtain ⟨world, hrun, hworld⟩ := Option.map_eq_some_iff.mp hend
  obtain ⟨hframes, hresend⟩ := mk.inj hworld
  exact ⟨world, hrun, hresend, (resent_frame_handed hrun hframes rfl).mpr (by simp [hresend])⟩

/-- The first copy of a frame is stored; the proxy, which has no acknowledgement yet, sends a second one, and that
store fails; then the acknowledgement comes.  The next record is refused as it is sent and as it is sent again. -/
def lateAckEvents : List (IngestEvent Unit) :=
  [.proxy (.record ()), .proxy .connect, .proxy .sendFrame, .ingest .committed, .proxy .resend, .proxy .sendFrame,
    .ingest .failed, .readAck, .proxy (.record ()), .proxy .sendFrame, .ingest .committed, .proxy .resend,
    .proxy .sendFrame]

theorem link_blocked_after_late_ack :
    ((run (IngestWorld.step fun _ _ => "record") (IngestWorld.init 0) lateAckEvents).bind fun world =>
      world.frames.head?.map fun frame => (frame.front, world.handed frame)) = some (true, false) := by
  decide +kernel

end Nyabase.SshProxy
