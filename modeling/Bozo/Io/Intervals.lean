import Bozo.Io.Chrono

/-!
# The sum of an interval

`to_chrono_duration` is meant to return the sum of the three parts of an
interval, clamped to the range of 64-bit microseconds.  Its guards work in whole
days.  On the days next to the first and the last whole day of the range they
let the sum be formed where it does not fit.
-/

namespace Bozo.Io

open Bozo.Bytes
open Bozo.Bytes.Checked

/-- The fields of an interval are in the ranges of their types. -/
structure PgInterval.InRange (interval : PgInterval) : Prop where
  microseconds : int64Min ≤ interval.microseconds ∧ interval.microseconds ≤ int64Max
  days : -2 ^ 31 ≤ interval.days ∧ interval.days < 2 ^ 31
  months : -2 ^ 31 ≤ interval.months ∧ interval.months < 2 ^ 31

/-- The exact sum of an interval in microseconds, with months of thirty days. -/
def PgInterval.sum (interval : PgInterval) : Int :=
  interval.months * (30 * usecsPerDay) + interval.days * usecsPerDay + interval.microseconds

/-- The nearest 64-bit count of microseconds. -/
def clamp (usecs : Int) : Int :=
  max int64Min (min int64Max usecs)

/-- The whole days of an interval. -/
def PgInterval.wholeDays (interval : PgInterval) : Int :=
  interval.months * 30 + interval.days + interval.microseconds.tdiv usecsPerDay

/-- The part of a day that its whole days leave. -/
def PgInterval.surplus (interval : PgInterval) : Int :=
  interval.microseconds.tmod usecsPerDay

/-- On the day before the first whole day of the range, the sum lies less than a
day below the range; on the day after the last one, less than a day above. -/
def ClearOfEdges (total surplus : Int) : Prop :=
  (total = minDays - 1 →
    int64Min ≤ minDays * usecsPerDay + surplus ∧
      (minDays - 1) * usecsPerDay + surplus < int64Min) ∧
  (total = maxDays + 1 →
    maxDays * usecsPerDay + surplus ≤ int64Max ∧
      int64Max < (maxDays + 1) * usecsPerDay + surplus)

/-! ## The steps of the computation -/

/-- `to_chrono_duration` behind the count of whole days. -/
def saturatedSum (total surplus : Int) : Checked Int := do
  if total < minDays - 1 then
    return int64Min
  if ← belowMin total surplus then
    return int64Min
  if maxDays + 1 < total then
    return int64Max
  if ← aboveMax total surplus then
    return int64Max
  daysAndUsecs total surplus

theorem toChronoDuration_eq (interval : PgInterval) :
    toChronoDuration interval =
      (daysTotal interval >>= fun total => saturatedSum total interval.surplus) :=
  rfl

theorem minDays_eq : minDays = -106751991 := by decide

theorem maxDays_eq : maxDays = 106751991 := by decide

theorem daysTotal_eq_pure {interval : PgInterval} (range : interval.InRange) :
    daysTotal interval = pure interval.wholeDays := by
  rcases range with ⟨⟨usecsLower, usecsUpper⟩, days, months⟩
  have quotient := tdiv_usecsPerDay_bounds usecsLower usecsUpper
  have monthDays : op (interval.months * 30) = pure (interval.months * 30) :=
    op_eq_pure (by unfold int64Min; omega) (by unfold int64Max; omega)
  have withDays : op (interval.months * 30 + interval.days) =
      pure (interval.months * 30 + interval.days) :=
    op_eq_pure (by unfold int64Min; omega) (by unfold int64Max; omega)
  have all : op interval.wholeDays = pure interval.wholeDays :=
    op_eq_pure (by unfold int64Min PgInterval.wholeDays; omega)
      (by unfold int64Max PgInterval.wholeDays; omega)
  unfold daysTotal
  rw [monthDays, pure_bind, withDays, pure_bind]
  exact all

theorem sum_eq (interval : PgInterval) :
    interval.sum = interval.wholeDays * usecsPerDay + interval.surplus := by
  have rejoin := tdiv_tmod_usecsPerDay interval.microseconds
  unfold PgInterval.sum PgInterval.wholeDays PgInterval.surplus
  unfold usecsPerDay at *
  omega

section Guards

variable {total surplus : Int}
  (surplusLower : -86400000000 < surplus) (surplusUpper : surplus < 86400000000)

include surplusLower surplusUpper

theorem belowMin_eq_pure (inGuard : ¬ total < minDays - 1)
    (edge : total = minDays - 1 → int64Min ≤ minDays * usecsPerDay + surplus) :
    belowMin total surplus =
      pure (decide (total < 0 ∧ total * usecsPerDay + surplus < int64Min)) := by
  rw [minDays_eq] at inGuard edge
  unfold belowMin
  split <;> rename_i sign
  · have next : op (total + 1) = pure (total + 1) :=
      op_eq_pure (by unfold int64Min; omega) (by unfold int64Max; omega)
    have sum : daysAndUsecs (total + 1) surplus = pure ((total + 1) * 86400000000 + surplus) := by
      apply daysAndUsecs_eq_pure
      · omega
      · omega
      · by_cases first : total = -106751992
        · subst first
          exact edge rfl
        · unfold int64Min
          omega
      · unfold int64Max
        omega
    have same : ((total + 1) * 86400000000 + surplus < int64Min + usecsPerDay) ↔
        (total < 0 ∧ total * usecsPerDay + surplus < int64Min) := by
      unfold usecsPerDay
      omega
    rw [next, pure_bind, sum, pure_bind, decide_eq_decide.mpr same]
  · rw [decide_eq_false fun below => sign below.1]

theorem aboveMax_eq_pure (inGuard : ¬ maxDays + 1 < total)
    (edge : total = maxDays + 1 → maxDays * usecsPerDay + surplus ≤ int64Max) :
    aboveMax total surplus =
      pure (decide (0 < total ∧ int64Max < total * usecsPerDay + surplus)) := by
  rw [maxDays_eq] at inGuard edge
  unfold aboveMax
  split <;> rename_i sign
  · have previous : op (total - 1) = pure (total - 1) :=
      op_eq_pure (by unfold int64Min; omega) (by unfold int64Max; omega)
    have sum : daysAndUsecs (total - 1) surplus = pure ((total - 1) * 86400000000 + surplus) := by
      apply daysAndUsecs_eq_pure
      · omega
      · omega
      · unfold int64Min
        omega
      · by_cases last : total = 106751992
        · subst last
          exact edge rfl
        · unfold int64Max
          omega
    have same : (int64Max - usecsPerDay < (total - 1) * 86400000000 + surplus) ↔
        (0 < total ∧ int64Max < total * usecsPerDay + surplus) := by
      unfold usecsPerDay
      omega
    rw [previous, pure_bind, sum, pure_bind, decide_eq_decide.mpr same]
  · rw [decide_eq_false fun above => sign above.1]

end Guards

/-! ## The saturated sum -/

theorem overflow_bind {α β : Type} (first : Checked α) (next : α → Checked β) :
    (first >>= next).overflow = (first.overflow || (next first.value).overflow) :=
  rfl

theorem overflow_op {x : Int} (outside : x < int64Min ∨ int64Max < x) :
    (op x).overflow = true := by
  apply decide_eq_true
  unfold int64 int64Min int64Max at *
  rw [Int.bmod_def]
  omega

/-- Whole days outside the range are never converted exactly. -/
theorem overflow_daysAndUsecs {total : Int} (outside : total < minDays ∨ maxDays < total)
    (surplus : Int) : (daysAndUsecs total surplus).overflow = true := by
  rw [minDays_eq, maxDays_eq] at outside
  unfold daysAndUsecs
  rw [overflow_bind, overflow_op, Bool.true_or]
  unfold usecsPerDay int64Min int64Max
  omega

section Sums

variable {total surplus : Int}
  (surplusLower : -86400000000 < surplus) (surplusUpper : surplus < 86400000000)

include surplusLower surplusUpper

theorem saturatedSum_eq_pure (clear : ClearOfEdges total surplus) :
    saturatedSum total surplus = pure (clamp (total * usecsPerDay + surplus)) := by
  rcases clear with ⟨first, last⟩
  have minEq := minDays_eq
  have maxEq := maxDays_eq
  unfold saturatedSum clamp
  by_cases farBelow : total < minDays - 1
  · rw [if_pos farBelow]
    congr 1
    unfold usecsPerDay int64Min int64Max
    omega
  rw [if_neg farBelow, belowMin_eq_pure surplusLower surplusUpper farBelow fun edge => (first edge).1,
    pure_bind]
  by_cases below : total < 0 ∧ total * usecsPerDay + surplus < int64Min
  · rw [decide_eq_true below, if_pos rfl]
    congr 1
    unfold int64Max
    unfold int64Min at below ⊢
    omega
  rw [decide_eq_false below, if_neg Bool.false_ne_true]
  by_cases farAbove : maxDays + 1 < total
  · rw [if_pos farAbove]
    congr 1
    unfold usecsPerDay int64Min int64Max
    omega
  rw [if_neg farAbove, aboveMax_eq_pure surplusLower surplusUpper farAbove fun edge => (last edge).1,
    pure_bind]
  by_cases above : 0 < total ∧ int64Max < total * usecsPerDay + surplus
  · rw [decide_eq_true above, if_pos rfl]
    congr 1
    unfold int64Min
    unfold int64Max at above ⊢
    omega
  rw [decide_eq_false above, if_neg Bool.false_ne_true]
  -- on the two edge days the sum is out of range, which the guards have seen
  have notFirst : total ≠ minDays - 1 := by
    intro edge
    exact below ⟨by omega, by rw [edge]; exact (first edge).2⟩
  have notLast : total ≠ maxDays + 1 := by
    intro edge
    exact above ⟨by omega, by rw [edge]; exact (last edge).2⟩
  have lower : int64Min ≤ total * 86400000000 + surplus := by
    unfold usecsPerDay at below
    unfold int64Min at below ⊢
    omega
  have upper : total * 86400000000 + surplus ≤ int64Max := by
    unfold usecsPerDay at above
    unfold int64Max at above ⊢
    omega
  rw [daysAndUsecs_eq_pure (by omega) (by omega) lower upper]
  congr 1
  unfold usecsPerDay
  omega

/-- On the day before the first whole day of the range, either the guard or the
sum itself is out of range. -/
theorem saturatedSum_overflow_first (edge : total = minDays - 1)
    (unclear : ¬ (int64Min ≤ minDays * usecsPerDay + surplus ∧
      (minDays - 1) * usecsPerDay + surplus < int64Min)) :
    (saturatedSum total surplus).overflow = true := by
  have minEq := minDays_eq
  have maxEq := maxDays_eq
  have negative : total < 0 := by omega
  have guarded : ¬ total < minDays - 1 := by omega
  unfold saturatedSum
  rw [if_neg guarded]
  by_cases low : minDays * usecsPerDay + surplus < int64Min
  · have next : op (total + 1) = pure minDays := by
      rw [edge, Int.sub_add_cancel]
      exact op_eq_pure (by decide) (by decide)
    have whole : op (minDays * usecsPerDay) = pure (minDays * usecsPerDay) :=
      op_eq_pure (by decide) (by decide)
    have guard : (belowMin total surplus).overflow = true := by
      unfold belowMin daysAndUsecs
      rw [if_pos negative, next, pure_bind, whole, pure_bind, overflow_bind,
        overflow_op (.inl low), Bool.true_or]
    rw [overflow_bind, guard, Bool.true_or]
  · have inRange : ¬ (minDays - 1) * usecsPerDay + surplus < int64Min :=
      fun below => unclear ⟨by omega, below⟩
    have notBelow : ¬ (total < 0 ∧ total * usecsPerDay + surplus < int64Min) := by
      rw [edge]
      exact fun below => inRange below.2
    have notAbove : aboveMax total surplus = pure false := by
      unfold aboveMax
      rw [if_neg (by omega)]
    rw [belowMin_eq_pure surplusLower surplusUpper guarded fun _ => by omega, pure_bind,
      decide_eq_false notBelow, if_neg Bool.false_ne_true, if_neg (by omega), notAbove, pure_bind,
      if_neg Bool.false_ne_true]
    exact overflow_daysAndUsecs (by omega) surplus

/-- The same on the day after the last whole day of the range. -/
theorem saturatedSum_overflow_last (edge : total = maxDays + 1)
    (unclear : ¬ (maxDays * usecsPerDay + surplus ≤ int64Max ∧
      int64Max < (maxDays + 1) * usecsPerDay + surplus)) :
    (saturatedSum total surplus).overflow = true := by
  have minEq := minDays_eq
  have maxEq := maxDays_eq
  have positive : 0 < total := by omega
  have notBelow : belowMin total surplus = pure false := by
    unfold belowMin
    rw [if_neg (by omega)]
  unfold saturatedSum
  rw [if_neg (by omega), notBelow, pure_bind, if_neg Bool.false_ne_true, if_neg (by omega)]
  by_cases high : int64Max < maxDays * usecsPerDay + surplus
  · have previous : op (total - 1) = pure maxDays := by
      rw [edge, Int.add_sub_cancel]
      exact op_eq_pure (by decide) (by decide)
    have whole : op (maxDays * usecsPerDay) = pure (maxDays * usecsPerDay) :=
      op_eq_pure (by decide) (by decide)
    have guard : (aboveMax total surplus).overflow = true := by
      unfold aboveMax daysAndUsecs
      rw [if_pos positive, previous, pure_bind, whole, pure_bind, overflow_bind,
        overflow_op (.inr high), Bool.true_or]
    rw [overflow_bind, guard, Bool.true_or]
  · have inRange : ¬ int64Max < (maxDays + 1) * usecsPerDay + surplus :=
      fun above => unclear ⟨by omega, above⟩
    have notAbove : ¬ (0 < total ∧ int64Max < total * usecsPerDay + surplus) := by
      rw [edge]
      exact fun above => inRange above.2
    rw [aboveMax_eq_pure surplusLower surplusUpper (by omega) fun _ => by omega, pure_bind,
      decide_eq_false notAbove, if_neg Bool.false_ne_true]
    exact overflow_daysAndUsecs (by omega) surplus

end Sums

/-- For every interval whose fields fit their types, `to_chrono_duration`
returns the exact sum clamped to 64 bits, without an overflow on the way, if and
only if the interval is clear of the two edge days. -/
theorem toChronoDuration_exact_iff (interval : PgInterval) (range : interval.InRange) :
    ((toChronoDuration interval).value = clamp interval.sum ∧
        (toChronoDuration interval).overflow = false) ↔
      ClearOfEdges interval.wholeDays interval.surplus := by
  have bounds : -86400000000 < interval.surplus ∧ interval.surplus < 86400000000 :=
    tmod_usecsPerDay_bounds interval.microseconds
  rcases bounds with ⟨lower, upper⟩
  rw [toChronoDuration_eq, daysTotal_eq_pure range, pure_bind]
  constructor
  · rintro ⟨-, unmarked⟩
    constructor
    · intro first
      by_contra unclear
      rw [saturatedSum_overflow_first lower upper first unclear] at unmarked
      cases unmarked
    · intro last
      by_contra unclear
      rw [saturatedSum_overflow_last lower upper last unclear] at unmarked
      cases unmarked
  · intro clear
    rw [saturatedSum_eq_pure lower upper clear, sum_eq]
    exact ⟨rfl, rfl⟩

/-- A day below the first whole day and almost a day more, in parts of one
sign. -/
def nearlyTwoDaysBelow : PgInterval :=
  ⟨-86399999999, -106751992, 0⟩

/-- The most negative durations are not clamped: the guard overflows, and the
wrapped sum is a large positive duration. -/
theorem toChronoDuration_nearlyTwoDaysBelow :
    nearlyTwoDaysBelow.InRange ∧ clamp nearlyTwoDaysBelow.sum = int64Min ∧
      (toChronoDuration nearlyTwoDaysBelow).overflow = true ∧
      (toChronoDuration nearlyTwoDaysBelow).value = 9223371878509551617 := by
  refine ⟨⟨by decide, by decide, by decide⟩, by decide, by decide, by decide⟩

/-- The interval of seven years, eight months, nine days and some hours of the
tests. -/
theorem toChronoDuration_exact_sevenYears :
    (toChronoDuration ⟨36672013014, 9, 92⟩).value = clamp (PgInterval.sum ⟨36672013014, 9, 92⟩) ∧
      (toChronoDuration ⟨36672013014, 9, 92⟩).overflow = false :=
  (toChronoDuration_exact_iff ⟨36672013014, 9, 92⟩ ⟨by decide, by decide, by decide⟩).mpr
    ⟨by decide, by decide⟩

end Bozo.Io
