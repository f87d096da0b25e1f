import Mathlib.Tactic

/-!
# Times on their way through Incus, PostgreSQL and JavaScript

Incus writes a time as RFC 3339 text, with up to nine fraction digits and in any zone.  PostgreSQL keeps the
instant to the microsecond, a JavaScript `Date` to the millisecond, and `toISOString` writes it back with
three fraction digits in UTC.  A text is represented by what it writes: two texts are equal exactly when
they write the same date and time of day, the same digits and the same zone.
-/

namespace Nyabase.Backend

/-- An RFC 3339 text.  `second` is the written date and time of day as a count of seconds, `offset` the
written zone in minutes east of UTC (`none` is `Z`). -/
structure Rfc3339 where
  second : Int
  fraction : List (Fin 10)
  offset : Option Int
  deriving DecidableEq

/-- The number the fraction digits write, with the digits behind them as zeros up to nanoseconds. -/
def fractionNanos (digits : List (Fin 10)) : Nat :=
  digits.foldl (fun value digit => value * 10 + digit.val) 0 * 10 ^ (9 - digits.length)

/-- The instant a text names, in nanoseconds. -/
def Rfc3339.instant (text : Rfc3339) : Int :=
  (text.second - 60 * text.offset.getD 0) * 10 ^ 9 + fractionNanos text.fraction

/-- A `timestamptz` value: the instant in microseconds, rounded to the nearest one, a half to the even one. -/
def timestamptz (text : Rfc3339) : Int :=
  let micros := (text.instant + 500) / 1000
  if text.instant % 1000 = 500 ∧ micros % 2 = 1 then micros - 1 else micros

/-- The `Date` the driver makes of a `timestamptz` value: whole milliseconds. -/
def dateOf (micros : Int) : Int := micros / 1000

/-- The decimal digit of `value` at `10 ^ place`. -/
def digitAt (value : Int) (place : Nat) : Fin 10 := Fin.ofNat 10 (value / 10 ^ place).toNat

/-- `new Date(millis).toISOString()`. -/
def toISOString (millis : Int) : Rfc3339 where
  second := millis / 1000
  fraction := [digitAt (millis % 1000) 2, digitAt (millis % 1000) 1, digitAt (millis % 1000) 0]
  offset := none

/-- How Go prints an instant in UTC: with as many fraction digits as it needs. -/
def rfc3339Nano (nanos : Int) : Rfc3339 where
  second := nanos / 10 ^ 9
  fraction :=
    ((List.range 9).map (digitAt (nanos % 10 ^ 9))).dropWhile (fun digit => digit == 0) |>.reverse
  offset := none

/-- The form `toISOString` writes: three fraction digits, in UTC. -/
def Rfc3339.IsIsoMillis (text : Rfc3339) : Prop := text.fraction.length = 3 ∧ text.offset = none

instance (text : Rfc3339) : Decidable text.IsIsoMillis := inferInstanceAs (Decidable (_ ∧ _))

/-- A text in the form of `toISOString` comes back from the database and the `Date` as it was. -/
theorem toISOString_dateOf_timestamptz {text : Rfc3339} (h : text.IsIsoMillis) :
    toISOString (dateOf (timestamptz text)) = text := by
  obtain ⟨second, fraction, offset⟩ := text
  obtain ⟨hlength, rfl : offset = none⟩ := h
  obtain ⟨a, b, c, rfl⟩ : ∃ a b c, fraction = [a, b, c] := List.length_eq_three.mp hlength
  have hmillis : dateOf (timestamptz ⟨second, [a, b, c], none⟩) =
      second * 1000 + (a.val * 100 + b.val * 10 + c.val : Nat) := by
    simp only [dateOf, timestamptz, Rfc3339.instant, fractionNanos, List.foldl, List.length_cons,
      List.length_nil, Option.getD_none]
    push_cast
    rw [if_neg (by omega)]
    omega
  rw [hmillis, toISOString]
  congr 1
  · omega
  · simp only [digitAt, List.cons.injEq, and_true, Fin.ext_iff, Fin.val_ofNat]
    refine ⟨?_, ?_, ?_⟩ <;> omega

end Nyabase.Backend
