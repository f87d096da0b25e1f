import Mathlib.Tactic
import Nyabase.Lib.Result

/-!
# Snapshot leases: `tools/proxy-common/src/clock.rs`

A snapshot from the Backend carries an absolute expiry in wall-clock milliseconds.  A proxy turns it
into a remaining lifetime, bounded by the snapshot's own staleness window and an allowed clock skew.
Wall-clock readings are `u64`; an addition that would not fit is refused.
-/

namespace Nyabase.ProxyCommon

open Lib

/-- `MAX_SNAPSHOT_CLOCK_SKEW_MS`. -/
def maxSnapshotClockSkewMs : Nat := 30000

/-- `absolute_snapshot_remaining`, in milliseconds. -/
def absoluteSnapshotRemaining (label : String) (validUntilMs staleAfterMs wallNowMs : Nat) : Except String Nat := do
  ensure (decide (wallNowMs + staleAfterMs + maxSnapshotClockSkewMs < 2 ^ 64))
    (label ++ " snapshot absolute lease overflow")
  ensure (decide (validUntilMs ≤ wallNowMs + staleAfterMs + maxSnapshotClockSkewMs))
    (label ++ " snapshot validUntil is too far in the future")
  ensure (decide (wallNowMs < validUntilMs)) (label ++ " snapshot absolute lease already expired")
  pure (validUntilMs - wallNowMs)

end Nyabase.ProxyCommon
