import Nyabase.SshProxy.History

/-!
# Refusals are counted once each

Every refusal is in exactly one count: of a record already pushed, or of the open window.  A window names at
most `MAX_REFUSAL_KEYS` addresses; what comes after is counted by its reason alone.
-/

namespace Nyabase.SshProxy

open ProxyCommon List HistoryLog

/-- A call into the history log. -/
inductive HistoryCall (ρ : Type) where
  | record (entry : ρ)
  | refuse (ip : IpAddr) (reason : String) (now : Nat)
  | flushRefusals (now : Nat)
  | acknowledge (seq : Nat)

def HistoryCall.apply {ρ : Type} (encode : Nat → HistoryRecord ρ → String) (log : HistoryLog ρ) :
    HistoryCall ρ → HistoryLog ρ
  | .record entry => log.record encode entry
  | .refuse ip reason now => log.refuse encode ip reason now
  | .flushRefusals now => log.flushRefusals encode now
  | .acknowledge seq => log.acknowledge seq

/-- A refusal for this reason. -/
def HistoryCall.refuses {ρ : Type} (reason : String) : HistoryCall ρ → Bool
  | .refuse _ other _ => other == reason
  | _ => false

/-! ## Sums by reason -/

/-- The refusals for a reason that a window counts. -/
def windowCount (reason : String) (counts : List (RefusalKey × Nat)) : Nat :=
  (counts.map fun entry => if entry.1.2 = reason then entry.2 else 0).sum

/-- The refusals for a reason that a record counts. -/
def recordCount {ρ : Type} (reason : String) : HistoryRecord ρ → Nat
  | .session _ => 0
  | .refusals record => (record.refusals.map fun entry => if entry.reason = reason then entry.count else 0).sum

/-- The refusals for a reason in all records ever pushed. -/
def HistoryLog.emitted {ρ : Type} (reason : String) (log : HistoryLog ρ) : Nat :=
  (log.pushed.map fun entry => recordCount reason entry.2).sum

/-- The refusals for a reason that the log has counted. -/
def HistoryLog.counted {ρ : Type} (reason : String) (log : HistoryLog ρ) : Nat :=
  log.emitted reason + windowCount reason log.refusals.counts

theorem windowCount_bump (reason : String) (key : RefusalKey) (counts : List (RefusalKey × Nat)) :
    windowCount reason (bump key counts) = windowCount reason counts + if key.2 = reason then 1 else 0 := by
  fun_induction bump key counts with
  | case1 => simp [windowCount]
  | case2 entry rest hentry =>
    simp only [windowCount, map_cons, sum_cons, ← hentry]
    split <;> omega
  | case3 entry rest hentry ih =>
    simp only [windowCount, map_cons, sum_cons] at ih ⊢
    omega

section

variable {ρ : Type}

/-- What the loop that drops the oldest records leaves. -/
theorem HistoryLog.dropOldest_eq (most : Nat) (log : HistoryLog ρ) (entries : List (Nat × String)) :
    log.dropOldest most entries = { log with
        pending := entries.drop (entries.length - most)
        dropped := log.dropped + (entries.length - most)
        lost := log.lost ++ (entries.take (entries.length - most)).map Prod.fst } := by
  induction entries generalizing log with
  | nil => simp [dropOldest]
  | cons first rest ih =>
    unfold dropOldest
    split
    · next hmany =>
      rw [length_cons] at hmany
      rw [ih, length_cons, show rest.length + 1 - most = (rest.length - most) + 1 by omega]
      simp only [drop_succ_cons, take_succ_cons, map_cons, append_assoc,
        singleton_append, Nat.add_assoc, Nat.add_comm 1]
    · next hfew =>
      rw [show (first :: rest).length - most = 0 by omega]
      simp

@[simp] theorem HistoryLog.dropOldest_refusals (most : Nat) (log : HistoryLog ρ)
    (entries : List (Nat × String)) : (log.dropOldest most entries).refusals = log.refusals := by
  rw [dropOldest_eq]

@[simp] theorem HistoryLog.dropOldest_pushed (most : Nat) (log : HistoryLog ρ)
    (entries : List (Nat × String)) : (log.dropOldest most entries).pushed = log.pushed := by
  rw [dropOldest_eq]

variable (encode : Nat → HistoryRecord ρ → String)

@[simp] theorem HistoryLog.push_refusals (log : HistoryLog ρ) (record : HistoryRecord ρ) :
    (log.push encode record).refusals = log.refusals := by
  simp [push]

@[simp] theorem HistoryLog.push_pushed (log : HistoryLog ρ) (record : HistoryRecord ρ) :
    (log.push encode record).pushed = log.pushed ++ [(log.nextSeq, record)] := by
  simp [push]

theorem HistoryLog.emitted_push (reason : String) (log : HistoryLog ρ) (record : HistoryRecord ρ) :
    (log.push encode record).emitted reason = log.emitted reason + recordCount reason record := by
  simp [emitted]

/-- Rolling the window over moves its counts into a record. -/
theorem HistoryLog.counted_rollRefusals (reason : String) (log : HistoryLog ρ) (now : Nat) :
    (log.rollRefusals encode now).counted reason = log.counted reason := by
  unfold HistoryLog.rollRefusals
  split
  · rfl
  split
  · rfl
  · rw [counted, emitted_push, push_refusals, recordCount, refusalCounts,
      ((mergeSort_perm _ _).map _).sum_eq, map_map]
    rfl

/-- One call counts one refusal or none. -/
theorem HistoryLog.counted_apply (reason : String) (log : HistoryLog ρ) (call : HistoryCall ρ) :
    (call.apply encode log).counted reason = log.counted reason + if call.refuses reason then 1 else 0 := by
  cases call with
  | record entry =>
    show (log.push encode (.session entry)).counted reason = _
    rw [counted, emitted_push, push_refusals]
    rfl
  | refuse ip other now =>
    have hrolled := counted_rollRefusals encode reason log now
    have hkey : (refusalKey (log.rollRefusals encode now).refusals.counts ip other).2 = other := by
      unfold refusalKey
      split <;> rfl
    show ((log.rollRefusals encode now).countRefusal ip other).counted reason = _
    rw [← hrolled]
    simp only [counted, countRefusal, windowCount_bump, hkey, HistoryCall.refuses, beq_iff_eq]
    rw [← Nat.add_assoc]
    rfl
  | flushRefusals now => exact counted_rollRefusals encode reason log now
  | acknowledge seq => rfl

/-! ## Keys that name an address -/

/-- The keys of a window that name an address. -/
def addressed (counts : List (RefusalKey × Nat)) : Nat := counts.countP fun entry => entry.1.1.isSome

theorem lookup_bump (key other : RefusalKey) (counts : List (RefusalKey × Nat)) :
    ((bump key counts).lookup other).getD 0 = (counts.lookup other).getD 0 + if other = key then 1 else 0 := by
  fun_induction bump key counts with
  | case1 => grind
  | case2 entry rest hentry => grind
  | case3 entry rest hentry ih => grind

variable {key : RefusalKey} {counts : List (RefusalKey × Nat)}

theorem keys_bump_of_some (h : (counts.lookup key).isSome = true) :
    (bump key counts).map Prod.fst = counts.map Prod.fst := by
  fun_induction bump key counts with
  | case1 => cases h
  | case2 entry rest hentry => rw [map_cons, map_cons, hentry]
  | case3 entry rest hentry ih =>
    rw [lookup_cons, beq_eq_false_iff_ne.mpr (Ne.symm hentry)] at h
    rw [map_cons, map_cons, ih h]

theorem bump_of_none (h : counts.lookup key = none) : bump key counts = counts ++ [(key, 1)] := by
  fun_induction bump key counts with
  | case1 => rfl
  | case2 entry rest hentry => simp [hentry] at h
  | case3 entry rest hentry ih =>
    rw [lookup_cons, beq_eq_false_iff_ne.mpr (Ne.symm hentry)] at h
    rw [ih h, cons_append]

/-- A window names few addresses, and counts without an address only once it names as many as it may. -/
structure WindowShape (counts : List (RefusalKey × Nat)) : Prop where
  few : addressed counts ≤ maxRefusalKeys
  full : ∀ entry ∈ counts, entry.1.1 = none → addressed counts = maxRefusalKeys

theorem windowShape_nil : WindowShape [] where
  few := Nat.zero_le _
  full := by simp

theorem addressed_of_keys {counts other : List (RefusalKey × Nat)}
    (h : counts.map Prod.fst = other.map Prod.fst) : addressed counts = addressed other := by
  have hcount : ∀ list : List (RefusalKey × Nat),
      addressed list = (list.map Prod.fst).countP fun key => key.1.isSome := by
    intro list
    rw [countP_map]
    rfl
  rw [hcount, hcount, h]

/-- There is room for a new key exactly while fewer addresses are named than may be. -/
theorem WindowShape.length_lt_iff (h : WindowShape counts) :
    counts.length < maxRefusalKeys ↔ addressed counts < maxRefusalKeys := by
  have hle : addressed counts ≤ counts.length := countP_le_length
  by_cases hnone : ∃ entry ∈ counts, entry.1.1 = none
  · obtain ⟨entry, hentry, hkey⟩ := hnone
    have hfull := h.full entry hentry hkey
    omega
  · have heq : addressed counts = counts.length := by
      rw [addressed, countP_eq_length]
      intro entry hentry
      exact Option.isSome_iff_ne_none.mpr fun hkey => hnone ⟨entry, hentry, hkey⟩
    omega

theorem WindowShape.bump_of_some
    (h : WindowShape counts) (hkey : (counts.lookup key).isSome = true) : WindowShape (bump key counts) := by
  have hkeys := keys_bump_of_some hkey
  constructor
  · rw [addressed_of_keys hkeys]
    exact h.few
  intro entry hentry hnone
  have hmem : entry.1 ∈ counts.map Prod.fst := by
    rw [← hkeys]
    exact mem_map_of_mem hentry
  obtain ⟨old, hold, heq⟩ := mem_map.mp hmem
  rw [addressed_of_keys hkeys]
  exact h.full old hold (by rw [heq]; exact hnone)

theorem WindowShape.refusal (h : WindowShape counts) (ip : IpAddr)
    (reason : String) : WindowShape (bump (refusalKey counts ip reason) counts) := by
  cases hkey : counts.lookup (refusalKey counts ip reason) with
  | some count => exact h.bump_of_some (by rw [hkey]; rfl)
  | none =>
    rw [bump_of_none hkey]
    have happend : ∀ key : RefusalKey, addressed (counts ++ [(key, 1)]) =
        addressed counts + if key.1.isSome then 1 else 0 := by
      intro key
      simp [addressed, countP_cons]
    unfold refusalKey at hkey ⊢
    split
    · next hroom =>
      -- a new key that names an address: there was room for it
      rw [if_pos hroom] at hkey
      rw [hkey] at hroom
      have hlength : counts.length < maxRefusalKeys := by simpa using hroom
      have hfew := h.length_lt_iff.mp hlength
      constructor
      · rw [happend]
        simp only [Option.isSome_some, if_true]
        omega
      intro entry hentry hnone
      rcases mem_append.mp hentry with hold | hnew
      · have hfull := h.full entry hold hnone
        omega
      · rw [mem_singleton.mp hnew] at hnone
        cases hnone
    · next hroom =>
      have hlength : ¬ counts.length < maxRefusalKeys := by
        intro hlt
        apply hroom
        simp [hlt]
      have hfull : addressed counts = maxRefusalKeys := by
        have hnot := mt h.length_lt_iff.mpr hlength
        have hfew := h.few
        omega
      constructor
      · rw [happend, hfull]
        simp
      · intro entry _ _
        rw [happend, hfull]
        simp

variable {ρ : Type} (encode : Nat → HistoryRecord ρ → String)

theorem WindowShape.rollRefusals {log : HistoryLog ρ} (h : WindowShape log.refusals.counts) (now : Nat) :
    WindowShape (log.rollRefusals encode now).refusals.counts := by
  unfold HistoryLog.rollRefusals
  split
  · exact h
  · split
    · exact h
    · rw [push_refusals]
      exact windowShape_nil

theorem WindowShape.apply {log : HistoryLog ρ} (h : WindowShape log.refusals.counts) (call : HistoryCall ρ) :
    WindowShape (call.apply encode log).refusals.counts := by
  cases call with
  | record entry =>
    show WindowShape (log.push encode (.session entry)).refusals.counts
    rw [push_refusals]
    exact h
  | refuse ip reason now => exact (h.rollRefusals encode now).refusal ip reason
  | flushRefusals now => exact h.rollRefusals encode now
  | acknowledge seq => exact h

/-! ## Every sequence of calls -/

def HistoryLog.after (log : HistoryLog ρ) (calls : List (HistoryCall ρ)) : HistoryLog ρ :=
  calls.foldl (fun log call => call.apply encode log) log

theorem counted_after (reason : String) (log : HistoryLog ρ) (calls : List (HistoryCall ρ)) :
    (log.after encode calls).counted reason = log.counted reason + calls.countP (HistoryCall.refuses reason) := by
  induction calls generalizing log with
  | nil => rfl
  | cons call calls ih =>
    show ((call.apply encode log).after encode calls).counted reason = _
    rw [ih, counted_apply, countP_cons]
    omega

theorem windowShape_after {log : HistoryLog ρ} (h : WindowShape log.refusals.counts)
    (calls : List (HistoryCall ρ)) : WindowShape (log.after encode calls).refusals.counts := by
  induction calls generalizing log with
  | nil => exact h
  | cons call calls ih => exact ih (h.apply encode call)

/-- The key a refusal is counted by in the window it meets. -/
def countedBy (counts : List (RefusalKey × Nat)) (ip : IpAddr) (reason : String) : RefusalKey :=
  if (counts.lookup (some ip, reason)).isSome = true ∨ addressed counts < maxRefusalKeys then (some ip, reason)
  else (none, reason)

theorem refusalKey_eq_countedBy (h : WindowShape counts) (ip : IpAddr)
    (reason : String) : refusalKey counts ip reason = countedBy counts ip reason := by
  unfold refusalKey countedBy
  simp only [Bool.or_eq_true, decide_eq_true_eq, h.length_lt_iff]

/-- Whatever is called on a new log, in whatever order and at whatever times: every refusal is counted once under
its reason, a window names at most `MAX_REFUSAL_KEYS` addresses, and the next refusal counts one more under its
address while fewer are named or its pair is counted already, and without an address otherwise. -/
theorem refusals_conserved (started : Nat) (calls : List (HistoryCall ρ)) :
    let log := (default started).after encode calls
    (∀ reason, log.emitted reason + windowCount reason log.refusals.counts =
      calls.countP (HistoryCall.refuses reason)) ∧
    addressed log.refusals.counts ≤ maxRefusalKeys ∧
    ∀ ip reason now key, let counts := (log.flushRefusals encode now).refusals.counts
      ((log.refuse encode ip reason now).refusals.counts.lookup key).getD 0 =
        (counts.lookup key).getD 0 + if key = countedBy counts ip reason then 1 else 0 := by
  have hshape : WindowShape ((default started).after encode calls).refusals.counts :=
    windowShape_after encode windowShape_nil calls
  refine ⟨?_, hshape.few, ?_⟩
  · intro reason
    have hcounted := counted_after encode reason (default started) calls
    rw [show (default started : HistoryLog ρ).counted reason = 0 from rfl, Nat.zero_add] at hcounted
    exact hcounted
  · intro ip reason now key
    have hrolled := hshape.rollRefusals encode now
    show ((bump (refusalKey _ ip reason) _).lookup key).getD 0 = _
    rw [lookup_bump, refusalKey_eq_countedBy hrolled]
    rfl

end

end Nyabase.SshProxy
