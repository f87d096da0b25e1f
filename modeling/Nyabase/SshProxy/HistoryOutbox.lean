import Nyabase.Lib.Transition
import Nyabase.SshProxy.RefusalCounts

/-!
# The history outbox loses nothing silently

The task of the control link sends the pending records frame by frame and keeps the number of the last one it
sent; a new link, and a stall, start over from the oldest pending record.  Between two such starts, a pass, the
frames are consecutive runs of the pending records.  An overflow drops the oldest record, which may have been
sent already: it then waits for no acknowledgement any more, and one more record may be sent in its place.
-/

namespace Nyabase.SshProxy

open Lib ProxyCommon List HistoryLog Prod

/-! ## The system -/

structure HistoryWorld (ρ : Type) where
  log : HistoryLog ρ
  /-- `history_sent` of the link, if there is one -/
  link : Option Nat
  /-- The numbers sent since the pass began; no operation reads this. -/
  passSent : List Nat
  /-- The greatest number acknowledged so far; no operation reads this. -/
  acked : Nat

inductive HistoryEvent (ρ : Type) where
  | record (entry : ρ)
  | refuse (ip : IpAddr) (reason : String) (now : Nat)
  | flushRefusals (now : Nat)
  | connect
  | loseLink
  | resend
  | sendFrame
  | acknowledge (seq : Nat)

namespace HistoryWorld

variable {ρ : Type} (encode : Nat → HistoryRecord ρ → String)

def init (now : Nat) : HistoryWorld ρ where
  log := HistoryLog.default now
  link := none
  passSent := []
  acked := 0

/-- One call of another task, or one step of the task of the link.  A frame is sent as long as there is one; an
acknowledgement names a number in use. -/
def step (world : HistoryWorld ρ) : HistoryEvent ρ → Option (HistoryWorld ρ)
  | .record entry => some { world with log := world.log.record encode entry }
  | .refuse ip reason now => some { world with log := world.log.refuse encode ip reason now }
  | .flushRefusals now => some { world with log := world.log.flushRefusals encode now }
  | .connect =>
    match world.link with
    | none => some { world with link := some 0, passSent := [] }
    | some _ => none
  | .loseLink => some { world with link := none }
  | .resend =>
    match world.link with
    | none => none
    | some _ => some { world with link := some 0, passSent := [] }
  | .sendFrame =>
    match world.link with
    | none => none
    | some sent =>
      (world.log.nextBatch sent).map fun (last, _) =>
        { world with
          link := some last
          passSent := world.passSent ++ (world.log.frame sent).map fst }
  | .acknowledge seq =>
    match world.link with
    | none => none
    | some sent =>
      if seq < world.log.nextSeq then
        some { world with
          log := world.log.acknowledge seq
          link := some (max sent seq)
          acked := max world.acked seq }
      else none

end HistoryWorld

/-! ## Sorted lists -/

/-- On a list that meets a condition first and then no more, cutting and filtering are the same. -/
theorem cut_eq_filter {α : Type} {p : α → Bool} {list : List α} (h : list.Pairwise fun a b => p b = true → p a = true) :
    list.takeWhile p = list.filter p ∧ list.dropWhile p = list.filter fun a => !p a := by
  induction list with
  | nil => exact ⟨rfl, rfl⟩
  | cons first rest ih =>
    obtain ⟨hfirst, hrest⟩ := pairwise_cons.mp h
    by_cases hp : p first = true
    · simp [hp, ih hrest]
    have hnone : ∀ a ∈ rest, ¬ p a = true := fun a ha htrue => hp (hfirst a ha htrue)
    have hall : rest.filter (fun a => !p a) = rest := filter_eq_self.mpr (by simpa using hnone)
    simp [hp, filter_eq_nil_iff.mpr hnone, hall]

/-! ## Pushing -/

section

variable {ρ : Type}

/-- The log is in order: records are numbered one after the other, the dropped ones come before the pending ones, and
these are the newest. -/
structure LogShape (log : HistoryLog ρ) : Prop where
  first : 1 ≤ log.nextSeq
  numbered : log.pushed.map fst = List.range' 1 (log.nextSeq - 1)
  sorted : (log.lost ++ log.pending.map fst).Pairwise (· < ·)
  below : ∀ seq ∈ log.lost ++ log.pending.map fst, 1 ≤ seq ∧ seq < log.nextSeq
  backlog : log.pending.length ≤ maxHistoryBacklog
  dropped : log.dropped = log.lost.length
  newest : log.pending.map fst <:+ log.pushed.map fst

variable {log : HistoryLog ρ} {entry : Nat × String} {world : HistoryWorld ρ} {sent first count total : Nat}

theorem LogShape.pending_sorted (h : LogShape log) : log.pending.Pairwise fun a b => a.1 < b.1 := by
  have hpending := (pairwise_append.mp h.sorted).2.1
  rwa [pairwise_map] at hpending

theorem LogShape.pending_below (h : LogShape log) (hentry : entry ∈ log.pending) :
    1 ≤ entry.1 ∧ entry.1 < log.nextSeq :=
  h.below entry.1 (mem_append_right _ (mem_map_of_mem hentry))

variable (encode : Nat → HistoryRecord ρ → String)

/-- The new record is pending; what was pending is pending or lost. -/
structure Pushed (log next : HistoryLog ρ) : Prop where
  nextSeq : next.nextSeq = log.nextSeq + 1
  pushed : ∃ record, next.pushed = log.pushed ++ [(log.nextSeq, record)]
  seqs : next.lost ++ next.pending.map fst = log.lost ++ log.pending.map fst ++ [log.nextSeq]
  pending : ∃ count text, next.pending = (log.pending ++ [(log.nextSeq, text)]).drop count
  backlog : next.pending.length ≤ maxHistoryBacklog
  dropped : next.dropped + log.lost.length = log.dropped + next.lost.length

theorem HistoryLog.pushed_push (log : HistoryLog ρ) (record : HistoryRecord ρ) :
    Pushed log (log.push encode record) := by
  rw [push, dropOldest_eq]
  constructor
  case nextSeq => rfl
  case pushed => exact ⟨record, rfl⟩
  case seqs =>
    simp
  case pending => exact ⟨_, _, rfl⟩
  case backlog =>
    rw [length_drop]
    omega
  case dropped =>
    simp only [length_append, length_map, length_take]
    omega

/-- A call that pushes nothing leaves the outbox alone. -/
structure Unpushed (log next : HistoryLog ρ) : Prop where
  nextSeq : next.nextSeq = log.nextSeq
  pushed : next.pushed = log.pushed
  pending : next.pending = log.pending
  lost : next.lost = log.lost
  dropped : next.dropped = log.dropped

theorem HistoryLog.rollRefusals_cases (log : HistoryLog ρ) (now : Nat) :
    Unpushed log (log.rollRefusals encode now) ∨ Pushed log (log.rollRefusals encode now) := by
  fun_cases rollRefusals encode log now with
  | case1 | case2 => exact .inl ⟨rfl, rfl, rfl, rfl, rfl⟩
  | case3 =>
    have hpushed := pushed_push encode
      { log with refusals := { start := now, counts := [] } }
      (.refusals { windowStart := log.refusals.start, windowEnd := now
                   refusals := refusalCounts log.refusals.counts })
    exact .inr { hpushed with }

variable {next : HistoryLog ρ} {last : Nat} {texts : List String}

theorem LogShape.of_pushed (h : LogShape log) (hnext : Pushed log next) : LogShape next := by
  have hfirst := h.first
  obtain ⟨record, hpushed⟩ := hnext.pushed
  constructor
  case first =>
    rw [hnext.nextSeq]
    omega
  case numbered =>
    rw [hpushed, hnext.nextSeq, map_append, h.numbered, Nat.add_sub_cancel,
      show log.nextSeq = log.nextSeq - 1 + 1 by omega, range'_concat, Nat.add_sub_cancel]
    simp [Nat.add_comm 1]
  case sorted =>
    rw [hnext.seqs, pairwise_append]
    refine ⟨h.sorted, pairwise_singleton _ _, ?_⟩
    intro seq hseq other hother
    rw [mem_singleton.mp hother]
    exact (h.below seq hseq).2
  case below =>
    intro seq hseq
    rw [hnext.seqs] at hseq
    rw [hnext.nextSeq]
    rcases mem_append.mp hseq with hold | hnew
    · have hlt := h.below seq hold
      omega
    · rw [mem_singleton.mp hnew]
      omega
  case backlog => exact hnext.backlog
  case dropped =>
    have hdropped := hnext.dropped
    have hold := h.dropped
    omega
  case newest =>
    obtain ⟨count, text, hpending⟩ := hnext.pending
    rw [hpending, hpushed, map_drop, map_append, map_append]
    exact (drop_suffix _ _).trans (suffix_append_inj_of_length_eq rfl |>.mpr ⟨h.newest, rfl⟩)

/-! ## Acknowledging and sending -/

theorem drop_length_takeWhile {α : Type} {p : α → Bool} {l : List α} :
    l.drop (l.takeWhile p).length = l.dropWhile p := by
  nth_rewrite 2 [← takeWhile_append_dropWhile (p := p) (l := l)]
  exact drop_left

theorem LogShape.cut (h : LogShape log) (seq : Nat) :
    (log.pending.takeWhile fun entry => entry.1 ≤ seq) = log.pending.filter (fun entry => entry.1 ≤ seq) ∧
      (log.pending.dropWhile fun entry => entry.1 ≤ seq) = log.pending.filter fun entry => !decide (entry.1 ≤ seq) := by
  apply cut_eq_filter
  refine h.pending_sorted.imp ?_
  intro a b hab hb
  simp only [decide_eq_true_eq] at hb ⊢
  omega

theorem LogShape.inFlight_eq (h : LogShape log) (after : Nat) :
    log.inFlight after = log.pending.countP fun entry => entry.1 ≤ after := by
  rw [HistoryLog.inFlight, (h.cut after).1, countP_eq_length_filter]

theorem LogShape.mem_acknowledge (h : LogShape log) {seq : Nat} :
    entry ∈ (log.acknowledge seq).pending ↔ entry ∈ log.pending ∧ seq < entry.1 := by
  rw [HistoryLog.acknowledge, (h.cut seq).2, mem_filter]
  simp

theorem LogShape.acknowledge (h : LogShape log) (seq : Nat) : LogShape (log.acknowledge seq) := by
  have hsublist : (log.acknowledge seq).pending.Sublist log.pending := dropWhile_sublist _
  have hseqs : (log.lost ++ (log.acknowledge seq).pending.map fst).Sublist
      (log.lost ++ log.pending.map fst) := (hsublist.map fst).append_left log.lost
  exact { h with
    sorted := h.sorted.sublist hseqs
    below := fun other hother => h.below other (hseqs.subset hother)
    backlog := Nat.le_trans hsublist.length_le h.backlog
    newest := ((dropWhile_suffix _).map fst).trans h.newest }

/-- The loop of `next_batch` takes a run of the records, at least one, and keeps to the bound in flight. -/
theorem takeBatch_eq (inFlight bytes : Nat) (batch rest : List (Nat × String)) :
    ∃ taken left, rest = taken ++ left ∧ takeBatch inFlight bytes batch rest = batch ++ taken ∧
      (batch = [] → rest ≠ [] → taken ≠ []) ∧
      ((batch = [] → inFlight < maxHistoryInFlight) → inFlight + batch.length ≤ maxHistoryInFlight →
        inFlight + (batch ++ taken).length ≤ maxHistoryInFlight) := by
  induction rest generalizing bytes batch with
  | nil => exact ⟨[], [], rfl, by simp [takeBatch], by simp, fun _ hle => by simpa using hle⟩
  | cons entry rest ih =>
    unfold takeBatch
    split
    · next hstop =>
      have hne : batch ≠ [] := by
        intro hnil
        simp [hnil] at hstop
      exact ⟨[], entry :: rest, rfl, by simp, fun hnil => absurd hnil hne, fun _ hle => by simpa using hle⟩
    · next hgo =>
      obtain ⟨taken, left, hrest, htake, -, hbound⟩ := ih (bytes + entry.2.utf8ByteSize + 1) (batch ++ [entry])
      refine ⟨entry :: taken, left, by rw [hrest, cons_append], by simp [htake], by simp, ?_⟩
      intro hroom hle
      have hlt : inFlight + batch.length < maxHistoryInFlight := by
        by_cases hnil : batch = []
        · have := hroom hnil
          simpa [hnil] using this
        · simp only [Bool.and_eq_true, Bool.not_eq_true', isEmpty_eq_false_iff, Bool.or_eq_true,
            decide_eq_true_eq, not_and, not_or, Nat.not_le] at hgo
          exact (hgo hnil).2
      have hgrown := hbound (by simp) (by simp only [length_append, length_singleton]; omega)
      simpa using hgrown

/-- The next frame is the run of pending records after those in flight. -/
theorem HistoryLog.frame_eq (log : HistoryLog ρ) (after : Nat) :
    ∃ left, (log.pending.dropWhile fun entry => entry.1 ≤ after) = log.frame after ++ left ∧
      (log.inFlight after ≤ maxHistoryInFlight → log.inFlight after + (log.frame after).length ≤ maxHistoryInFlight) ∧
      (log.inFlight after < maxHistoryInFlight →
        (log.pending.dropWhile fun entry => entry.1 ≤ after) ≠ [] → log.frame after ≠ []) := by
  have hcut : log.pending.drop (log.inFlight after) = log.pending.dropWhile fun entry => entry.1 ≤ after :=
    drop_length_takeWhile
  unfold HistoryLog.frame
  split
  · next hfull =>
    refine ⟨_, (nil_append _).symm, ?_, ?_⟩
    · simp
    · omega
  · next hroom =>
    obtain ⟨taken, left, hrest, htake, hsome, hbound⟩ :=
      takeBatch_eq (log.inFlight after) 0 [] (log.pending.drop (log.inFlight after))
    rw [nil_append] at htake
    refine ⟨left, ?_, ?_, ?_⟩
    · rw [htake, ← hrest, hcut]
    · intro hle
      rw [htake]
      exact hbound (fun _ => by omega) hle
    · intro _ hne
      rw [htake]
      exact hsome rfl (by rw [hcut]; exact hne)

theorem HistoryLog.pending_eq {after : Nat} {left : List (Nat × String)}
    (h : (log.pending.dropWhile fun entry => entry.1 ≤ after) = log.frame after ++ left) :
    log.pending = (log.pending.takeWhile fun entry => entry.1 ≤ after) ++ log.frame after ++ left := by
  rw [append_assoc, ← h, takeWhile_append_dropWhile]

theorem HistoryLog.frame_subset (log : HistoryLog ρ) (after : Nat) : log.frame after ⊆ log.pending := by
  obtain ⟨left, hcut, -, -⟩ := log.frame_eq after
  exact fun entry hentry => (dropWhile_sublist _).subset (hcut ▸ mem_append_left left hentry)

/-! ## What every run keeps -/

/-- What holds of a pass: everything pending up to the last number sent was sent in it. -/
structure PassInv (world : HistoryWorld ρ) (sent : Nat) : Prop where
  below : sent < world.log.nextSeq
  ordered : world.passSent.Pairwise (· < ·)
  upTo : ∀ seq ∈ world.passSent, seq ≤ sent
  sentPending : ∀ entry ∈ world.log.pending, entry.1 ≤ sent → entry.1 ∈ world.passSent
  inFlight : world.log.inFlight sent ≤ maxHistoryInFlight

structure OutboxInv (world : HistoryWorld ρ) : Prop where
  shape : LogShape world.log
  accounted : ∀ entry ∈ world.log.pushed,
    entry.1 ∈ world.log.pending.map fst ∨ entry.1 ≤ world.acked ∨ entry.1 ∈ world.log.lost
  pass : ∀ sent, world.link = some sent → PassInv world sent

theorem outboxInv_init (now : Nat) : OutboxInv (HistoryWorld.init now : HistoryWorld ρ) where
  shape := ⟨le_refl 1, rfl, .nil, by simp [HistoryWorld.init, HistoryLog.default], Nat.zero_le _, rfl, suffix_rfl⟩
  accounted := by simp [HistoryWorld.init, HistoryLog.default]
  pass := by
    intro sent hlink
    cases hlink

theorem PassInv.of_pushed (h : PassInv world sent)
    (hshape : LogShape world.log) (hnext : Pushed world.log next) : PassInv { world with log := next } sent := by
  have hbelow := h.below
  obtain ⟨count, text, hpending⟩ := hnext.pending
  refine { h with below := ?below, sentPending := ?sentPending, inFlight := ?inFlight }
  case below =>
    rw [hnext.nextSeq]
    omega
  case sentPending =>
    intro entry hentry hle
    have hmem : entry ∈ world.log.pending ++ [(world.log.nextSeq, text)] := by
      rw [hpending] at hentry
      exact mem_of_mem_drop hentry
    rcases mem_append.mp hmem with hold | hnew
    · exact h.sentPending entry hold hle
    · rw [mem_singleton.mp hnew] at hle
      omega
  case inFlight =>
    have hold := h.inFlight
    rw [hshape.inFlight_eq] at hold
    rw [(hshape.of_pushed hnext).inFlight_eq, hpending]
    calc ((world.log.pending ++ [(world.log.nextSeq, text)]).drop count).countP (fun entry => entry.1 ≤ sent)
        ≤ (world.log.pending ++ [(world.log.nextSeq, text)]).countP (fun entry => entry.1 ≤ sent) :=
          (drop_sublist _ _).countP_le
      _ = world.log.pending.countP (fun entry => entry.1 ≤ sent) := by
          rw [countP_append, countP_singleton, if_neg (by simpa using hbelow), Nat.add_zero]
      _ ≤ maxHistoryInFlight := hold

theorem OutboxInv.of_pushed (h : OutboxInv world)
    (hnext : Pushed world.log next) : OutboxInv { world with log := next } := by
  constructor
  case shape => exact h.shape.of_pushed hnext
  case accounted =>
    intro entry hentry
    obtain ⟨record, hpushed⟩ := hnext.pushed
    have hseqs : entry.1 ∈ next.lost ∨ entry.1 ∈ next.pending.map fst ↔
        (entry.1 ∈ world.log.lost ∨ entry.1 ∈ world.log.pending.map fst) ∨ entry.1 = world.log.nextSeq := by
      rw [← mem_append, hnext.seqs, mem_append, mem_append, mem_singleton]
    have hmem : entry ∈ next.pushed := hentry
    rw [hpushed, mem_append, mem_singleton] at hmem
    rcases hmem with hold | rfl
    · have hwas := h.accounted entry hold
      tauto
    · tauto
  case pass => exact fun sent hlink => (h.pass sent hlink).of_pushed h.shape hnext

theorem OutboxInv.of_unpushed (h : OutboxInv world)
    (hnext : Unpushed world.log next) : OutboxInv { world with log := next } := by
  obtain ⟨nextSeq, pending, refusals, dropped, pushed, lost⟩ := next
  obtain ⟨rfl, rfl, rfl, rfl, rfl⟩ := hnext
  exact ⟨{ h.shape with }, h.accounted, fun sent hlink => { h.pass sent hlink with }⟩

theorem OutboxInv.rollRefusals (h : OutboxInv world) (now : Nat) :
    OutboxInv { world with log := world.log.rollRefusals encode now } := by
  rcases rollRefusals_cases encode world.log now with hnext | hnext
  · exact h.of_unpushed hnext
  · exact h.of_pushed hnext

/-- A pass that begins has sent nothing. -/
theorem OutboxInv.restart (h : OutboxInv world) : OutboxInv { world with link := some 0, passSent := [] } := by
  have hpositive : ∀ entry ∈ world.log.pending, 1 ≤ entry.1 := fun entry hentry =>
    (h.shape.pending_below hentry).1
  refine ⟨h.shape, h.accounted, ?_⟩
  intro sent hlink
  cases hlink
  constructor
  case below => exact h.shape.first
  case ordered => exact List.Pairwise.nil
  case upTo => simp
  case sentPending =>
    intro entry hentry hle
    have := hpositive entry hentry
    omega
  case inFlight =>
    rw [h.shape.inFlight_eq, countP_eq_zero.mpr]
    · exact Nat.zero_le _
    intro entry hentry
    have := hpositive entry hentry
    simp only [decide_eq_true_eq]
    omega

theorem HistoryLog.nextBatch_eq_some {after : Nat} (h : log.nextBatch after = some (last, texts)) :
    ∃ entry, (log.frame after).getLast? = some entry ∧ last = entry.1 ∧ texts = (log.frame after).map snd := by
  obtain ⟨entry, hentry, heq⟩ := Option.map_eq_some_iff.mp h
  obtain ⟨rfl, rfl⟩ := Prod.mk.inj heq
  exact ⟨entry, hentry, rfl, rfl⟩

/-- What is in a frame comes after what was sent, and nothing after its last record is in it. -/
theorem LogShape.frame_bounds (h : LogShape log) {after : Nat} {last : Nat × String}
    (hlast : (log.frame after).getLast? = some last) : (∀ entry ∈ log.frame after, after < entry.1 ∧ entry.1 ≤ last.1) ∧
      ((log.frame after).map fst).Pairwise (· < ·) ∧
      (∀ entry ∈ log.pending, entry.1 ≤ last.1 → entry.1 ≤ after ∨ entry ∈ log.frame after) ∧
      log.inFlight last.1 ≤ log.inFlight after + (log.frame after).length := by
  obtain ⟨left, hcut, -, -⟩ := log.frame_eq after
  have hpending := pending_eq hcut
  have hsorted := h.pending_sorted
  rw [hpending] at hsorted
  have hframe := (pairwise_append.mp (pairwise_append.mp hsorted).1).2.1
  have hcross := (pairwise_append.mp hsorted).2.2
  obtain ⟨init, hinit⟩ := List.getLast?_eq_some_iff.mp hlast
  have hlastMem : last ∈ log.frame after := by
    rw [hinit]
    simp
  have hleft : ∀ entry ∈ left, last.1 < entry.1 := fun entry hentry =>
    hcross last (mem_append_right _ hlastMem) entry hentry
  refine ⟨?_, ?_, ?_, ?_⟩
  · intro entry hentry
    constructor
    · -- the frame lies in what the cut leaves
      have hdrop := mem_append_left left hentry
      rw [← hcut, (h.cut after).2, mem_filter] at hdrop
      simpa using hdrop.2
    · rw [hinit] at hentry hframe
      rcases mem_append.mp hentry with hbefore | hsame
      · exact Nat.le_of_lt ((pairwise_append.mp hframe).2.2 entry hbefore last mem_cons_self)
      · rw [mem_singleton.mp hsame]
  · rw [pairwise_map]
    exact hframe
  · intro entry hentry hle
    rw [hpending] at hentry
    rcases mem_append.mp hentry with hupTo | hafter
    · rcases mem_append.mp hupTo with hsent | hin
      · left
        rw [(h.cut after).1, mem_filter] at hsent
        simpa using hsent.2
      · exact .inr hin
    · have hlt := hleft entry hafter
      omega
  · have hnone : left.countP (fun entry => entry.1 ≤ last.1) = 0 := by
      rw [countP_eq_zero]
      intro entry hentry
      have hlt := hleft entry hentry
      simp only [decide_eq_true_eq]
      omega
    rw [h.inFlight_eq, hpending, countP_append, hnone, Nat.add_zero]
    exact countP_le_length.trans_eq length_append

theorem OutboxInv.sendFrame
    (h : OutboxInv world) (hlink : world.link = some sent)
    (hbatch : world.log.nextBatch sent = some (last, texts)) :
    OutboxInv { world with
      link := some last
      passSent := world.passSent ++ (world.log.frame sent).map fst } := by
  have hpass := h.pass sent hlink
  obtain ⟨entry, hentry, rfl, -⟩ := nextBatch_eq_some hbatch
  obtain ⟨hin, hordered, honly, hcount⟩ := h.shape.frame_bounds hentry
  have hmem : entry ∈ world.log.frame sent := List.mem_of_getLast? hentry
  obtain ⟨left, -, hbound, -⟩ := world.log.frame_eq sent
  refine { h with pass := fun next hnext => ?_ }
  cases hnext
  constructor
  case below => exact (h.shape.pending_below (frame_subset _ _ hmem)).2
  case ordered =>
    rw [pairwise_append]
    refine ⟨hpass.ordered, hordered, ?_⟩
    intro seq hseq other hother
    obtain ⟨record, hrecord, rfl⟩ := mem_map.mp hother
    have hle := hpass.upTo seq hseq
    have hlt := (hin record hrecord).1
    omega
  case upTo =>
    intro seq hseq
    rcases mem_append.mp hseq with hold | hnew
    · have hle := hpass.upTo seq hold
      have hlt := (hin entry hmem).1
      omega
    · obtain ⟨record, hrecord, rfl⟩ := mem_map.mp hnew
      exact (hin record hrecord).2
  case sentPending =>
    intro record hrecord hle
    rcases honly record hrecord hle with hsent | hframe
    · exact mem_append_left _ (hpass.sentPending record hrecord hsent)
    · exact mem_append_right _ (mem_map_of_mem hframe)
  case inFlight =>
    exact Nat.le_trans hcount (hbound hpass.inFlight)

/-- An acknowledgement takes pending records out, and moves the cursor past nothing pending. -/
theorem OutboxInv.acknowledge {seq : Nat} (h : OutboxInv world)
    (hlink : world.link = some sent) (hseq : seq < world.log.nextSeq) :
    OutboxInv { world with
      log := world.log.acknowledge seq
      link := some (max sent seq)
      acked := max world.acked seq } := by
  have hpass := h.pass sent hlink
  constructor
  case shape => exact h.shape.acknowledge seq
  case accounted =>
    intro entry hentry
    show entry.1 ∈ (world.log.acknowledge seq).pending.map fst ∨ entry.1 ≤ max world.acked seq ∨ _
    rcases h.accounted entry hentry with hpending | hacked | hlost
    · by_cases hle : entry.1 ≤ seq
      · right
        left
        omega
      · left
        obtain ⟨record, hrecord, heq⟩ := mem_map.mp hpending
        exact mem_map.mpr ⟨record, h.shape.mem_acknowledge.mpr ⟨hrecord, by omega⟩, heq⟩
    · right
      left
      omega
    · exact .inr (.inr hlost)
  case pass =>
    intro next hnext
    cases hnext
    constructor
    case below =>
      have hbelow := hpass.below
      show max sent seq < world.log.nextSeq
      omega
    case ordered => exact hpass.ordered
    case upTo =>
      intro other hother
      have hle := hpass.upTo other hother
      omega
    case sentPending =>
      intro entry hentry hle
      obtain ⟨hold, hlt⟩ := h.shape.mem_acknowledge.mp hentry
      exact hpass.sentPending entry hold (by omega)
    case inFlight =>
      have hle := hpass.inFlight
      rw [h.shape.inFlight_eq] at hle
      rw [(h.shape.acknowledge seq).inFlight_eq, HistoryLog.acknowledge, (h.shape.cut seq).2, countP_filter]
      refine Nat.le_trans (countP_mono_left ?_) hle
      intro entry _ hcount
      simp only [Bool.and_eq_true, decide_eq_true_eq, Bool.not_eq_true', decide_eq_false_iff_not] at hcount ⊢
      omega

theorem OutboxInv.step {next : HistoryWorld ρ} {event : HistoryEvent ρ} (h : OutboxInv world)
    (hstep : world.step encode event = some next) : OutboxInv next := by
  revert hstep
  fun_cases HistoryWorld.step encode world event with
  | case1 entry =>
    rintro ⟨⟩
    exact h.of_pushed (pushed_push encode world.log (.session entry))
  | case2 ip reason now =>
    rintro ⟨⟩
    exact (h.rollRefusals encode now).of_unpushed ⟨rfl, rfl, rfl, rfl, rfl⟩
  | case3 now =>
    rintro ⟨⟩
    exact h.rollRefusals encode now
  | case4 | case8 =>
    rintro ⟨⟩
    exact h.restart
  | case6 =>
    rintro ⟨⟩
    exact { h with pass := nofun }
  | case10 sent hlink =>
    intro hstep
    obtain ⟨batch, hbatch, rfl⟩ := Option.map_eq_some_iff.mp hstep
    exact h.sendFrame hlink hbatch
  | case12 seq sent hlink hseq =>
    rintro ⟨⟩
    exact h.acknowledge hlink hseq
  | _ => nofun

/-! ## Nothing is lost silently -/

/-- The next frame continues the pass: the pending records before it were sent in this pass, its own were not, and
it is the run of pending records between them and the rest. -/
def ContinuesPass (world : HistoryWorld ρ) (last : Nat) (texts : List String) : Prop :=
  ∃ front frame rest, world.log.pending = front ++ frame ++ rest ∧ texts = frame.map snd ∧
    frame.getLast?.map fst = some last ∧ (∀ entry ∈ front, entry.1 ∈ world.passSent) ∧
    ∀ entry ∈ frame, entry.1 ∉ world.passSent

structure NothingSilent (world : HistoryWorld ρ) : Prop where
  /-- every record is pending, covered by an acknowledgement or counted as dropped -/
  accounted : ∀ entry ∈ world.log.pushed,
    entry.1 ∈ world.log.pending.map fst ∨ entry.1 ≤ world.acked ∨ entry.1 ∈ world.log.lost
  counted : world.log.dropped = world.log.lost.length ∧ world.log.lost.Nodup
  increasing : (world.log.pushed.map fst).Pairwise (· < ·)
  backlog : world.log.pending.length ≤ maxHistoryBacklog
  /-- on a link, what is sent in a pass is in order and goes on where it stopped -/
  ordered : ∀ sent, world.link = some sent → world.passSent.Pairwise (· < ·)
  consecutive : ∀ sent last texts, world.link = some sent → world.log.nextBatch sent = some (last, texts) →
    ContinuesPass world last texts
  inFlight : ∀ sent, world.link = some sent →
    world.log.pending.countP (fun entry => decide (entry.1 ∈ world.passSent)) ≤ maxHistoryInFlight
  /-- something pending that was not sent is sent while the bound is not reached -/
  progress : ∀ sent, world.link = some sent → (∃ entry ∈ world.log.pending, entry.1 ∉ world.passSent) →
    world.log.pending.countP (fun entry => decide (entry.1 ∈ world.passSent)) < maxHistoryInFlight →
    ∃ last texts, world.log.nextBatch sent = some (last, texts) ∧ texts ≠ []

/-- Among the pending records, the ones sent in the pass are the ones up to the cursor. -/
theorem PassInv.mem_passSent_iff (h : PassInv world sent) (hentry : entry ∈ world.log.pending) :
    entry.1 ∈ world.passSent ↔ entry.1 ≤ sent :=
  ⟨h.upTo entry.1, h.sentPending entry hentry⟩

theorem PassInv.countP_passSent (h : PassInv world sent) (hshape : LogShape world.log) :
    world.log.pending.countP (fun entry => decide (entry.1 ∈ world.passSent)) = world.log.inFlight sent := by
  rw [hshape.inFlight_eq]
  apply countP_congr
  intro entry hentry
  simp only [decide_eq_true_eq]
  exact h.mem_passSent_iff hentry

theorem OutboxInv.continuesPass (h : OutboxInv world) (hlink : world.link = some sent)
    (hbatch : world.log.nextBatch sent = some (last, texts)) : ContinuesPass world last texts := by
  have hpass := h.pass sent hlink
  obtain ⟨entry, hentry, rfl, rfl⟩ := nextBatch_eq_some hbatch
  obtain ⟨hin, -, -, -⟩ := h.shape.frame_bounds hentry
  obtain ⟨rest, hcut, -, -⟩ := world.log.frame_eq sent
  refine ⟨_, _, rest, pending_eq hcut, rfl, by rw [hentry]; rfl, ?_, ?_⟩
  · intro record hrecord
    rw [(h.shape.cut sent).1, mem_filter] at hrecord
    exact hpass.sentPending record hrecord.1 (by simpa using hrecord.2)
  · intro record hrecord hsent
    have hle := hpass.upTo record.1 hsent
    have hlt := (hin record hrecord).1
    omega

theorem OutboxInv.progress (h : OutboxInv world) (hlink : world.link = some sent)
    (hunsent : ∃ entry ∈ world.log.pending, entry.1 ∉ world.passSent)
    (hroom : world.log.inFlight sent < maxHistoryInFlight) :
    ∃ last texts, world.log.nextBatch sent = some (last, texts) ∧ texts ≠ [] := by
  have hpass := h.pass sent hlink
  obtain ⟨entry, hentry, hnot⟩ := hunsent
  have hdrop : (world.log.pending.dropWhile fun entry => entry.1 ≤ sent) ≠ [] := by
    apply ne_nil_of_mem
    rw [(h.shape.cut sent).2, mem_filter]
    exact ⟨hentry, by simpa using mt (hpass.mem_passSent_iff hentry).mpr hnot⟩
  obtain ⟨rest, -, -, hsome⟩ := world.log.frame_eq sent
  have hframe := hsome hroom hdrop
  refine ⟨((world.log.frame sent).getLast hframe).1, (world.log.frame sent).map snd, ?_, ?_⟩
  · rw [nextBatch, List.getLast?_eq_some_getLast hframe]
    rfl
  · simpa using hframe

/-- In every run, from any start of the process, nothing is lost silently. -/
theorem outbox_loses_nothing_silently {now : Nat} {events : List (HistoryEvent ρ)} {world : HistoryWorld ρ}
    (hrun : run (HistoryWorld.step encode) (HistoryWorld.init now) events = some world) :
    NothingSilent world := by
  have h : OutboxInv world :=
    run_invariant (fun _ _ _ hinv hstep => OutboxInv.step encode hinv hstep) (outboxInv_init now) hrun
  constructor
  case accounted => exact h.accounted
  case counted =>
    exact ⟨h.shape.dropped, ((pairwise_append.mp h.shape.sorted).1).imp fun hlt => Nat.ne_of_lt hlt⟩
  case increasing =>
    rw [h.shape.numbered]
    exact pairwise_lt_range'
  case backlog => exact h.shape.backlog
  case ordered => exact fun sent hlink => (h.pass sent hlink).ordered
  case consecutive => exact fun sent last texts hlink hbatch => h.continuesPass hlink hbatch
  case inFlight =>
    intro sent hlink
    rw [(h.pass sent hlink).countP_passSent h.shape]
    exact (h.pass sent hlink).inFlight
  case progress =>
    intro sent hlink hunsent hroom
    rw [(h.pass sent hlink).countP_passSent h.shape] at hroom
    exact h.progress hlink hunsent hroom

/-! ## An overflow during a stall -/

/-- These numbers, each with the text of a record. -/
def records (first count : Nat) : List (Nat × String) :=
  (List.range' first count).map fun seq => (seq, "record")

theorem records_succ (first count : Nat) :
    records first (count + 1) = (first, "record") :: records (first + 1) count := by
  simp [records, range'_succ]

theorem records_concat (first count : Nat) :
    records first count ++ [(first + count, "record")] = records first (count + 1) := by
  simp [records, range'_concat]

theorem drop_records (first count dropped : Nat) :
    (records first count).drop dropped = records (first + dropped) (count - dropped) := by
  simp [records, ← map_drop]

theorem take_records (first count taken : Nat) :
    (records first count).take taken = records first (min taken count) :=
  ext_getElem (by simp [records]) (by simp [records])

/-- Where everything fits into the frame, the bound in flight alone decides. -/
theorem takeBatch_of_fits (inFlight bytes : Nat) (batch rest : List (Nat × String))
    (hfits : bytes + (rest.map fun entry => entry.2.utf8ByteSize + 1).sum ≤ maxHistoryFrameBytes)
    (hfirst : batch = [] → inFlight < maxHistoryInFlight) :
    takeBatch inFlight bytes batch rest = batch ++ rest.take (maxHistoryInFlight - (inFlight + batch.length)) := by
  induction rest generalizing bytes batch with
  | nil => simp [takeBatch]
  | cons entry rest ih =>
    rw [map_cons, sum_cons] at hfits
    unfold takeBatch
    by_cases hfull : maxHistoryInFlight ≤ inFlight + batch.length
    · have hne : batch ≠ [] := by
        rintro rfl
        exact absurd hfull (Nat.not_le.mpr (hfirst rfl))
      simp [hne, hfull]
    · obtain ⟨room, hroom⟩ := Nat.exists_eq_add_of_lt (Nat.not_le.mp hfull)
      have hsmall : ¬ maxHistoryFrameBytes < bytes + entry.2.utf8ByteSize + 1 := by omega
      rw [if_neg (by simp [hsmall, hfull]), ih _ _ (by omega) (by simp)]
      simp [hroom, show inFlight + batch.length + room + 1 - (inFlight + batch.length) = room + 1 by omega,
        show inFlight + batch.length + room + 1 - (inFlight + (batch.length + 1)) = room by omega]

theorem length_takeWhile_records (first count upTo : Nat) :
    ((records first count).takeWhile fun entry => entry.1 ≤ upTo).length = min count (upTo + 1 - first) := by
  induction count generalizing first with
  | zero => simp [records]
  | succ count ih =>
    rw [records_succ, takeWhile_cons]
    by_cases hle : first ≤ upTo
    all_goals
      simp [hle, ih]
      omega

/-- A link without acknowledgements: what is pending, the cursor and how much was sent in the pass. -/
structure Stalled (world : HistoryWorld Unit) (first count sent total : Nat) : Prop where
  pending : world.log.pending = records first count
  nextSeq : world.log.nextSeq = first + count
  link : world.link = some sent
  total : world.passSent.length = total
  acked : world.acked = 0

/-- The encoding of the run below. -/
def fixedText (_ : Nat) (_ : HistoryRecord Unit) : String := "record"

variable {world : HistoryWorld Unit}

theorem Stalled.record (h : Stalled world first count sent total) :
    ∃ next, world.step fixedText (.record ()) = some next ∧
      Stalled next (first + (count + 1 - maxHistoryBacklog)) (count + 1 - (count + 1 - maxHistoryBacklog))
        sent total := by
  refine ⟨_, rfl, ?_⟩
  have hentries : world.log.pending ++ [(world.log.nextSeq, fixedText world.log.nextSeq (.session ()))] =
      records first (count + 1) := by
    rw [h.pending, h.nextSeq]
    exact records_concat first count
  have hlength : (records first (count + 1)).length = count + 1 := by simp [records]
  have hlog : world.log.record fixedText () = dropOldest maxHistoryBacklog
      { world.log with nextSeq := world.log.nextSeq + 1,
                       pushed := world.log.pushed ++ [(world.log.nextSeq, .session ())] }
      (records first (count + 1)) := by
    rw [← hentries]
    rfl
  refine { h with pending := ?_, nextSeq := ?_ }
  · rw [hlog, dropOldest_eq, hlength]
    exact drop_records first (count + 1) _
  · rw [hlog, dropOldest_eq]
    show world.log.nextSeq + 1 = _
    rw [h.nextSeq]
    omega

theorem Stalled.fill (extra : Nat) (h : Stalled world first count sent total)
    (hroom : count + extra ≤ maxHistoryBacklog) : ∃ next, Stalled next first (count + extra) sent total ∧
      ∀ rest, run (HistoryWorld.step fixedText) world (List.replicate extra (.record ()) ++ rest) =
        run (HistoryWorld.step fixedText) next rest := by
  induction extra generalizing world count with
  | zero => exact ⟨world, h, fun rest => rfl⟩
  | succ extra ih =>
    obtain ⟨middle, hstep, hmiddle⟩ := h.record
    rw [show count + 1 - maxHistoryBacklog = 0 by omega, Nat.add_zero, Nat.sub_zero] at hmiddle
    obtain ⟨next, hnext, hrun⟩ := ih hmiddle (by omega)
    rw [show count + 1 + extra = count + (extra + 1) by omega] at hnext
    refine ⟨next, hnext, fun rest => ?_⟩
    rw [replicate_succ, cons_append, ← hrun rest]
    show (world.step fixedText (.record ())).bind _ = _
    rw [hstep]
    rfl

/-- A frame that the bound in flight cuts off. -/
theorem Stalled.sendFrame (h : Stalled world first count sent total) (taken : Nat) (hsent : first ≤ sent + 1)
    (htaken : 0 < taken) (hunsent : sent + taken < first + count)
    (hroom : sent + 1 + taken = first + maxHistoryInFlight) (hfits : count * 7 ≤ maxHistoryFrameBytes) :
    ∃ next, world.step fixedText .sendFrame = some next ∧ Stalled next first count (sent + taken) (total + taken) := by
  have hin : world.log.inFlight sent = sent + 1 - first := by
    rw [HistoryLog.inFlight, h.pending, length_takeWhile_records]
    omega
  have hsize : ("record" : String).utf8ByteSize = 6 := by decide
  have hframe : world.log.frame sent = records (sent + 1) taken := by
    rw [HistoryLog.frame, hin, if_neg (by omega), h.pending, drop_records,
      takeBatch_of_fits _ _ _ _ (by simp [records, Function.comp_def, hsize]; omega) (fun _ => by omega),
      nil_append, take_records, length_nil, show first + (sent + 1 - first) = sent + 1 by omega]
    congr 1
    omega
  have hlast : (world.log.frame sent).getLast? = some (sent + taken, "record") := by
    rw [hframe, show taken = taken - 1 + 1 by omega, ← records_concat, List.getLast?_concat]
    simp
    omega
  refine ⟨{ world with link := some (sent + taken),
                       passSent := world.passSent ++ (world.log.frame sent).map fst }, ?_, ?_⟩
  · simp [HistoryWorld.step, h.link, nextBatch, hlast]
  refine { h with link := rfl, total := ?_ }
  rw [length_append, h.total, hframe]
  simp [records]

theorem run_connect (rest : List (HistoryEvent Unit)) :
    run (HistoryWorld.step fixedText) (HistoryWorld.init 0) (.connect :: rest) =
      run (HistoryWorld.step fixedText) { HistoryWorld.init 0 with link := some 0 } rest := rfl

/-- The outbox fills up on a link that acknowledges nothing; then one more record comes. -/
def overflowingEvents : List (HistoryEvent Unit) :=
  .connect :: (List.replicate maxHistoryBacklog (.record ()) ++ [.sendFrame, .record (), .sendFrame])

theorem overflowing_run :
    ∃ world, run (HistoryWorld.step fixedText) (HistoryWorld.init 0) overflowingEvents = some world ∧
      Stalled world 2 maxHistoryBacklog (maxHistoryInFlight + 1) (maxHistoryInFlight + 1) := by
  have hbacklog : maxHistoryBacklog = 8192 := by decide +kernel
  have hflight : maxHistoryInFlight = 2048 := by decide +kernel
  have hstart : Stalled { HistoryWorld.init 0 with link := some 0 } 1 0 0 0 := ⟨rfl, rfl, rfl, rfl, rfl⟩
  obtain ⟨full, hfull, hrun⟩ := hstart.fill maxHistoryBacklog (by omega)
  have hfits : maxHistoryBacklog * 7 ≤ maxHistoryFrameBytes := by decide +kernel
  obtain ⟨sentOnce, hfirst, hsentOnce⟩ :=
    hfull.sendFrame maxHistoryInFlight (by omega) (by omega) (by omega) (by omega) (by omega)
  obtain ⟨overflown, hrecord, hoverflown⟩ := hsentOnce.record
  rw [show 0 + maxHistoryBacklog + 1 - maxHistoryBacklog = 1 by omega,
    show 0 + maxHistoryBacklog + 1 - 1 = maxHistoryBacklog by omega, Nat.zero_add] at hoverflown
  obtain ⟨world, hsecond, hworld⟩ :=
    hoverflown.sendFrame 1 (by omega) (by omega) (by omega) (by omega) hfits
  refine ⟨world, ?_, hworld⟩
  rw [overflowingEvents, run_connect, hrun, run_cons]
  refine ⟨sentOnce, hfirst, ?_⟩
  rw [run_cons]
  refine ⟨overflown, hrecord, ?_⟩
  rw [run_cons]
  exact ⟨world, hsecond, rfl⟩

/-- More records than the bound are sent and unacknowledged in one pass: the dropped one waits for no
acknowledgement any more. -/
theorem overflow_sends_beyond_bound :
    ∃ world, run (HistoryWorld.step fixedText) (HistoryWorld.init 0) overflowingEvents = some world ∧
      world.link.isSome = true ∧ world.acked = 0 ∧ world.passSent.length = maxHistoryInFlight + 1 := by
  obtain ⟨world, hrun, hworld⟩ := overflowing_run
  exact ⟨world, hrun, by rw [hworld.link]; rfl, hworld.acked, hworld.total⟩

/-- Two records, sent twice, the first of them acknowledged in between. -/
def resendingEvents : List (HistoryEvent Unit) :=
  [.record (), .record (), .connect, .sendFrame, .acknowledge 1, .resend, .sendFrame]

theorem overflow_and_resend_accounted :
    (∃ world, run (HistoryWorld.step fixedText) (HistoryWorld.init 0) overflowingEvents = some world ∧
      world.log.pending = records 2 maxHistoryBacklog ∧ NothingSilent world) ∧
    ∃ world, run (HistoryWorld.step fixedText) (HistoryWorld.init 0) resendingEvents = some world ∧
      world.passSent = [2] ∧ NothingSilent world := by
  constructor
  · obtain ⟨world, hrun, hworld⟩ := overflowing_run
    exact ⟨world, hrun, hworld.pending, outbox_loses_nothing_silently fixedText hrun⟩
  · have hsent : (run (HistoryWorld.step fixedText) (HistoryWorld.init 0) resendingEvents).map
        HistoryWorld.passSent = some [2] := by decide +kernel
    obtain ⟨world, hrun, hsent⟩ := Option.map_eq_some_iff.mp hsent
    exact ⟨world, hrun, hsent, outbox_loses_nothing_silently fixedText hrun⟩

end

end Nyabase.SshProxy
