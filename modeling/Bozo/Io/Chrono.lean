import Bozo.Bytes.Checked
import Bozo.Bytes.Reader

/-!
# Durations and time points on the wire

An interval travels as microseconds, days and months.  The sender splits a count
of microseconds at whole days; the receiver adds the three parts up and clamps
the sum to the 64-bit range, working with days first so that the sum is not
formed when it does not fit.

A timestamp travels as microseconds since 2000-01-01, while the clock counts
nanoseconds since 1970-01-01.
-/

namespace Bozo.Io

open Bozo.Bytes
open Bozo.Bytes.Checked

/-! ## Intervals -/

/-- The fields of `detail::pg_interval`. -/
structure PgInterval where
  microseconds : Int
  days : Int
  months : Int
  deriving DecidableEq, Repr

/-- Microseconds in a day. -/
def usecsPerDay : Int := 86400000000

/-- `from_chrono_duration`: the remainder and the quotient of the truncating
division by a day. -/
def fromChronoDuration (usecs : Int) : PgInterval where
  microseconds := usecs.tmod usecsPerDay
  days := int32 (usecs.tdiv usecsPerDay)
  months := 0

/-- `duration_cast<days>(microseconds::min())`. -/
def minDays : Int := int64Min.tdiv usecsPerDay

/-- `duration_cast<days>(microseconds::max())`. -/
def maxDays : Int := int64Max.tdiv usecsPerDay

/-- A count of days plus a part of a day, in microseconds. -/
def daysAndUsecs (days usecs : Int) : Checked Int := do
  let whole ← op (days * usecsPerDay)
  op (whole + usecs)

/-- `days_total`: months of thirty days, days, and the whole days of the
microseconds. -/
def daysTotal (interval : PgInterval) : Checked Int := do
  let monthDays ← op (interval.months * 30)
  let days ← op (monthDays + interval.days)
  op (days + interval.microseconds.tdiv usecsPerDay)

/-- Whether the sum lies below the 64-bit range, tested one day above it. -/
def belowMin (total surplus : Int) : Checked Bool :=
  if total < 0 then do
    let next ← op (total + 1)
    let sum ← daysAndUsecs next surplus
    pure (decide (sum < int64Min + usecsPerDay))
  else
    pure false

/-- Whether the sum lies above the 64-bit range, tested one day below it. -/
def aboveMax (total surplus : Int) : Checked Bool :=
  if 0 < total then do
    let previous ← op (total - 1)
    let sum ← daysAndUsecs previous surplus
    pure (decide (int64Max - usecsPerDay < sum))
  else
    pure false

/-- `to_chrono_duration`. -/
def toChronoDuration (interval : PgInterval) : Checked Int := do
  let usecsSurplus := interval.microseconds.tmod usecsPerDay
  let total ← daysTotal interval
  if total < minDays - 1 then
    return int64Min
  if ← belowMin total usecsSurplus then
    return int64Min
  if maxDays + 1 < total then
    return int64Max
  if ← aboveMax total usecsSurplus then
    return int64Max
  daysAndUsecs total usecsSurplus

/-! Truncating division by a day -/

theorem tdiv_usecsPerDay_of_nonneg {x : Int} (sign : 0 ≤ x) :
    x.tdiv usecsPerDay = x / 86400000000 :=
  Int.tdiv_eq_ediv_of_nonneg sign

theorem tdiv_usecsPerDay_of_neg {x : Int} (sign : x < 0) :
    x.tdiv usecsPerDay = -(-x / 86400000000) := by
  have positive : (-x).tdiv usecsPerDay = -x / 86400000000 :=
    tdiv_usecsPerDay_of_nonneg (by omega)
  rw [Int.neg_tdiv] at positive
  omega

theorem tdiv_tmod_usecsPerDay (x : Int) :
    x.tdiv usecsPerDay * 86400000000 + x.tmod usecsPerDay = x := by
  rw [Int.mul_comm]
  exact Int.mul_tdiv_add_tmod x usecsPerDay

theorem tmod_usecsPerDay_bounds (x : Int) :
    -86400000000 < x.tmod usecsPerDay ∧ x.tmod usecsPerDay < 86400000000 := by
  have rejoin := tdiv_tmod_usecsPerDay x
  by_cases sign : 0 ≤ x
  · rw [tdiv_usecsPerDay_of_nonneg sign] at rejoin
    omega
  · rw [tdiv_usecsPerDay_of_neg (by omega)] at rejoin
    omega

theorem tdiv_usecsPerDay_eq_zero {x : Int} (lower : -86400000000 < x) (upper : x < 86400000000) :
    x.tdiv usecsPerDay = 0 := by
  by_cases sign : 0 ≤ x
  · rw [tdiv_usecsPerDay_of_nonneg sign]
    omega
  · rw [tdiv_usecsPerDay_of_neg (by omega)]
    omega

theorem tdiv_usecsPerDay_bounds {x : Int} (lower : int64Min ≤ x) (upper : x ≤ int64Max) :
    -106751991 ≤ x.tdiv usecsPerDay ∧ x.tdiv usecsPerDay ≤ 106751991 := by
  unfold int64Min at lower
  unfold int64Max at upper
  by_cases sign : 0 ≤ x
  · rw [tdiv_usecsPerDay_of_nonneg sign]
    omega
  · rw [tdiv_usecsPerDay_of_neg (by omega)]
    omega

/-! The computation on an interval that was sent -/

theorem daysAndUsecs_eq_pure {days usecs : Int}
    (dayLower : -106751991 ≤ days) (dayUpper : days ≤ 106751991)
    (lower : int64Min ≤ days * 86400000000 + usecs)
    (upper : days * 86400000000 + usecs ≤ int64Max) :
    daysAndUsecs days usecs = pure (days * 86400000000 + usecs) := by
  unfold daysAndUsecs
  have wholeLower : int64Min ≤ days * usecsPerDay := by
    unfold int64Min usecsPerDay
    omega
  have wholeUpper : days * usecsPerDay ≤ int64Max := by
    unfold int64Max usecsPerDay
    omega
  rw [op_eq_pure wholeLower wholeUpper, pure_bind]
  exact op_eq_pure lower upper

section Sent

variable {days surplus : Int}
  (dayLower : -106751991 ≤ days) (dayUpper : days ≤ 106751991)
  (modLower : -86400000000 < surplus) (modUpper : surplus < 86400000000)
  (lower : int64Min ≤ days * 86400000000 + surplus)
  (upper : days * 86400000000 + surplus ≤ int64Max)

include dayLower dayUpper modLower modUpper

theorem daysTotal_sent : daysTotal ⟨surplus, days, 0⟩ = pure days := by
  unfold daysTotal
  have dayMin : int64Min ≤ days := by
    unfold int64Min
    omega
  have dayMax : days ≤ int64Max := by
    unfold int64Max
    omega
  simp only [tdiv_usecsPerDay_eq_zero modLower modUpper, Int.zero_mul, Int.add_zero,
    op_eq_pure (show int64Min ≤ 0 by decide) (show (0 : Int) ≤ int64Max by decide),
    pure_bind, Int.zero_add, op_eq_pure dayMin dayMax]

include lower in
theorem belowMin_sent : belowMin days surplus = pure false := by
  unfold belowMin
  split <;> rename_i sign
  · have next : op (days + 1) = pure (days + 1) :=
      op_eq_pure (by unfold int64Min; omega) (by unfold int64Max; omega)
    have sum : daysAndUsecs (days + 1) surplus = pure ((days + 1) * 86400000000 + surplus) :=
      daysAndUsecs_eq_pure (by omega) (by omega) (by unfold int64Min at *; omega)
        (by unfold int64Max; omega)
    have notBelow : ¬ (days + 1) * 86400000000 + surplus < int64Min + usecsPerDay := by
      unfold usecsPerDay
      omega
    rw [next, pure_bind, sum, pure_bind, decide_eq_false notBelow]
  · rfl

include upper in
theorem aboveMax_sent : aboveMax days surplus = pure false := by
  unfold aboveMax
  split <;> rename_i sign
  · have previous : op (days - 1) = pure (days - 1) :=
      op_eq_pure (by unfold int64Min; omega) (by unfold int64Max; omega)
    have sum : daysAndUsecs (days - 1) surplus = pure ((days - 1) * 86400000000 + surplus) :=
      daysAndUsecs_eq_pure (by omega) (by omega) (by unfold int64Min; omega)
        (by unfold int64Max at *; omega)
    have notAbove : ¬ int64Max - usecsPerDay < (days - 1) * 86400000000 + surplus := by
      unfold usecsPerDay
      omega
    rw [previous, pure_bind, sum, pure_bind, decide_eq_false notAbove]
  · rfl

end Sent

/-- A 64-bit count of microseconds is recovered from the interval it is sent
as, and no operation on the way overflows. -/
theorem toChronoDuration_fromChronoDuration {usecs : Int} (lower : int64Min ≤ usecs)
    (upper : usecs ≤ int64Max) :
    toChronoDuration (fromChronoDuration usecs) = pure usecs := by
  rcases tdiv_usecsPerDay_bounds lower upper with ⟨dayLower, dayUpper⟩
  rcases tmod_usecsPerDay_bounds usecs with ⟨modLower, modUpper⟩
  have rejoin := tdiv_tmod_usecsPerDay usecs
  unfold toChronoDuration fromChronoDuration
  generalize usecs.tdiv usecsPerDay = days at *
  generalize usecs.tmod usecsPerDay = surplus at *
  rw [← rejoin] at lower upper
  have narrow : int32 days = days := int32_eq_self (by omega) (by omega)
  have sameSurplus : surplus.tmod usecsPerDay = surplus := by
    have split := tdiv_tmod_usecsPerDay surplus
    rw [tdiv_usecsPerDay_eq_zero modLower modUpper] at split
    omega
  have minEq : minDays = -106751991 := by decide
  have maxEq : maxDays = 106751991 := by decide
  have inMin : ¬ days < minDays - 1 := by omega
  have inMax : ¬ maxDays + 1 < days := by omega
  simp only [narrow, sameSurplus, daysTotal_sent dayLower dayUpper modLower modUpper,
    belowMin_sent dayLower dayUpper modLower modUpper lower,
    aboveMax_sent dayLower dayUpper modLower modUpper upper,
    daysAndUsecs_eq_pure dayLower dayUpper lower upper, pure_bind, inMin, inMax, if_false,
    Bool.false_eq_true, rejoin]

/-! ## Timestamps -/

/-- `detail::epoch` in clock ticks: 10957 days of nanoseconds. -/
def epoch : Int := 946684800000000000

/-- The wire value of a time point: truncated microseconds since the epoch. -/
def timestampToWire (ticks : Int) : Checked Int := do
  let sinceEpoch ← op (ticks - epoch)
  pure (sinceEpoch.tdiv 1000)

/-- The time point of a wire value. -/
def timestampOfWire (usecs : Int) : Checked Int := do
  let ticks ← op (usecs * 1000)
  op (epoch + ticks)

end Bozo.Io
