import Bozo.Bytes.Checked

/-!
# Deadlines

A time constraint is absent, a duration, or the time point of a deadline.  Time
points and durations are counts of clock ticks in 64 bits; a time point counts
from the epoch of the clock.
-/

namespace Bozo

open Bozo.Bytes
open Bozo.Bytes.Checked

inductive TimeConstraint
  | none
  | duration (ticks : Int)
  | timePoint (ticks : Int)
  deriving DecidableEq

/-- `deadline(after, now)`. -/
def deadlineAfter (after now : Int) : Checked Int :=
  if after < 0 then
    pure now
  else do
    let room ← op (int64Max - now)
    if after > room then pure int64Max else op (now + after)

/-- The overloads of `deadline`; `now` is the reading of the clock. -/
def deadline (t : TimeConstraint) (now : Int) : Checked TimeConstraint :=
  match t with
  | .none => pure .none
  | .duration after => TimeConstraint.timePoint <$> deadlineAfter after now
  | .timePoint t => pure (.timePoint t)

/-- `time_left`. -/
def timeLeft (t now : Int) : Checked Int :=
  if t > now then op (t - now) else pure 0

/-- A deadline is the sum, or the end of the clock. -/
theorem deadlineAfter_eq {after now : Int} (after_nonneg : 0 ≤ after) (now_nonneg : 0 ≤ now)
    (now_le : now ≤ int64Max) :
    deadlineAfter after now = pure (min (now + after) int64Max) := by
  have lower : int64Min ≤ 0 := by decide
  have room : op (int64Max - now) = pure (int64Max - now) :=
    op_eq_pure (by omega) (by omega)
  rw [deadlineAfter, if_neg (by omega), room, pure_bind]
  split
  · rw [Int.min_eq_right (by omega)]
  · rw [Int.min_eq_left (by omega)]
    exact op_eq_pure (by omega) (by omega)

/-- The time left is the difference, unless the deadline is over. -/
theorem timeLeft_eq {t now : Int} (now_nonneg : 0 ≤ now) (t_le : t ≤ int64Max) :
    timeLeft t now = pure (max 0 (t - now)) := by
  have lower : int64Min ≤ 0 := by decide
  unfold timeLeft
  split
  · rw [Int.max_eq_right (by omega)]
    exact op_eq_pure (by omega) (by omega)
  · rw [Int.max_eq_left (by omega)]

end Bozo
