import Nyabase.ProxyCommon.IpAddr
import Mathlib.Data.List.Sort

/-!
# The history log: `tools/ssh-proxy/src/history.rs`

Records of connections and channels wait in a bounded outbox until the Backend acknowledges them; connections
that end unauthenticated are counted per window and reported as one record each window.  The log never looks
into the records of connections and channels, so their type is a parameter, and so is the text a record is
encoded as.  Counters are natural numbers.
-/

namespace Nyabase.SshProxy

open ProxyCommon

@[irreducible] def maxHistoryBacklog : Nat := 8192
def maxHistoryFrameBytes : Nat := 256 * 1024
@[irreducible] def maxHistoryInFlight : Nat := 2048
def refusalWindowMs : Nat := 5 * 60000
def maxRefusalKeys : Nat := 256

structure RefusalCount where
  peerIp : Option String
  reason : String
  count : Nat

structure RefusalRecord where
  windowStart : Nat
  windowEnd : Nat
  refusals : List RefusalCount

/-- A record of a connection or a channel, or the refusals of a window. -/
inductive HistoryRecord (ρ : Type) where
  | session (record : ρ)
  | refusals (record : RefusalRecord)

/-- What refusals are counted by: the address, while there is room for it, and the reason. -/
abbrev RefusalKey := Option IpAddr × String

structure RefusalWindow where
  start : Nat
  counts : List (RefusalKey × Nat)

/-- `HistoryLog` with its `Outbox`. -/
structure HistoryLog (ρ : Type) where
  nextSeq : Nat
  pending : List (Nat × String)
  refusals : RefusalWindow
  dropped : Nat
  /-- Every record ever pushed, with its number; no operation reads this. -/
  pushed : List (Nat × HistoryRecord ρ)
  /-- The numbers of the records an overflow dropped; no operation reads this. -/
  lost : List Nat

/-- `HistoryLog::default` at this time. -/
def HistoryLog.default {ρ : Type} (now : Nat) : HistoryLog ρ where
  nextSeq := 1
  pending := []
  refusals := { start := now, counts := [] }
  dropped := 0
  pushed := []
  lost := []

section

variable {ρ : Type} (encode : Nat → HistoryRecord ρ → String)

/-- The loop that drops the oldest records while there are more than `most`. -/
def HistoryLog.dropOldest (most : Nat) (log : HistoryLog ρ) : List (Nat × String) → HistoryLog ρ
  | [] => { log with pending := [] }
  | first :: rest =>
    if most < (first :: rest).length then
      HistoryLog.dropOldest most { log with dropped := log.dropped + 1, lost := log.lost ++ [first.1] } rest
    else { log with pending := first :: rest }

def HistoryLog.push (log : HistoryLog ρ) (record : HistoryRecord ρ) : HistoryLog ρ :=
  HistoryLog.dropOldest maxHistoryBacklog
    { log with nextSeq := log.nextSeq + 1, pushed := log.pushed ++ [(log.nextSeq, record)] }
    (log.pending ++ [(log.nextSeq, encode log.nextSeq record)])

def HistoryLog.record (log : HistoryLog ρ) (record : ρ) : HistoryLog ρ := log.push encode (.session record)

/-- `(&a.peer_ip, a.reason).cmp(&(&b.peer_ip, b.reason))` is not `Greater`. -/
def refusalLe (a b : RefusalCount) : Bool :=
  match a.peerIp, b.peerIp with
  | none, some _ => true
  | some _, none => false
  | none, none => decide (a.reason ≤ b.reason)
  | some left, some right => decide (left < right) || left == right && decide (a.reason ≤ b.reason)

/-- The counts of a window, as they are reported. -/
def refusalCounts (counts : List (RefusalKey × Nat)) : List RefusalCount :=
  (counts.map fun entry =>
    { peerIp := entry.1.1.map fun ip => String.ofList ip.display
      reason := entry.1.2
      count := entry.2 }).mergeSort refusalLe

/-- `roll_refusals`: report the window once it is over. -/
def HistoryLog.rollRefusals (log : HistoryLog ρ) (now : Nat) : HistoryLog ρ :=
  if now - log.refusals.start < refusalWindowMs then log
  else
    let rolled := { log with refusals := { log.refusals with start := now } }
    if log.refusals.counts.isEmpty then rolled
    else
      HistoryLog.push encode { rolled with refusals := { start := now, counts := [] } } (.refusals
          { windowStart := log.refusals.start
            windowEnd := now
            refusals := refusalCounts log.refusals.counts })

/-- `*counts.entry(key).or_default() += 1`. -/
def bump (key : RefusalKey) : List (RefusalKey × Nat) → List (RefusalKey × Nat)
  | [] => [(key, 1)]
  | entry :: rest => if entry.1 = key then (key, entry.2 + 1) :: rest else entry :: bump key rest

/-- The key a refusal is counted by. -/
def refusalKey (counts : List (RefusalKey × Nat)) (ip : IpAddr) (reason : String) : RefusalKey :=
  if (counts.lookup (some ip, reason)).isSome || counts.length < maxRefusalKeys then (some ip, reason)
  else (none, reason)

def HistoryLog.countRefusal (log : HistoryLog ρ) (ip : IpAddr) (reason : String) : HistoryLog ρ :=
  { log with refusals :=
      { log.refusals with counts := bump (refusalKey log.refusals.counts ip reason) log.refusals.counts } }

def HistoryLog.refuse (log : HistoryLog ρ) (ip : IpAddr) (reason : String) (now : Nat) : HistoryLog ρ :=
  (log.rollRefusals encode now).countRefusal ip reason

def HistoryLog.flushRefusals (log : HistoryLog ρ) (now : Nat) : HistoryLog ρ := log.rollRefusals encode now

/-- The Backend stored every record up to and including `seq`. -/
def HistoryLog.acknowledge (log : HistoryLog ρ) (seq : Nat) : HistoryLog ρ :=
  { log with pending := log.pending.dropWhile fun entry => entry.1 ≤ seq }

/-- The loop of `next_batch` over the records not sent yet. -/
def takeBatch (inFlight : Nat) (bytes : Nat) (batch : List (Nat × String)) : List (Nat × String) → List (Nat × String)
  | [] => batch
  | entry :: rest =>
    if !batch.isEmpty && (decide (maxHistoryFrameBytes < bytes + entry.2.utf8ByteSize + 1) ||
          decide (maxHistoryInFlight ≤ inFlight + batch.length)) then batch
    else takeBatch inFlight (bytes + entry.2.utf8ByteSize + 1) (batch ++ [entry]) rest

/-- The records sent and still waiting. -/
def HistoryLog.inFlight (log : HistoryLog ρ) (after : Nat) : Nat :=
  (log.pending.takeWhile fun entry => entry.1 ≤ after).length

/-- The records of the next frame. -/
def HistoryLog.frame (log : HistoryLog ρ) (after : Nat) : List (Nat × String) :=
  if maxHistoryInFlight ≤ log.inFlight after then []
  else takeBatch (log.inFlight after) 0 [] (log.pending.drop (log.inFlight after))

/-- The last number and the texts of the next frame, if there is one. -/
def HistoryLog.nextBatch (log : HistoryLog ρ) (after : Nat) : Option (Nat × List String) :=
  (log.frame after).getLast?.map fun last => (last.1, (log.frame after).map Prod.snd)

end

end Nyabase.SshProxy
