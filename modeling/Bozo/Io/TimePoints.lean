import Bozo.Io.RoundTrip
import Mathlib.Algebra.Order.Group.Abs
import Mathlib.Algebra.Order.Ring.Int

/-!
# Time points

A time point counts nanoseconds since 1970 and travels as microseconds since
2000, both in 64 bits.  Either conversion is right as long as no operation of it
overflows, which is decided here for every value.
-/

namespace Bozo.Io

open Bozo.Bytes
open Bozo.Bytes.Reader
open Bozo.Bytes.Checked

/-! ## Conversions -/

theorem timestampOfWire_eq_pure {usecs : Int} (lower : int64Min ≤ usecs * 1000)
    (upper : epoch + usecs * 1000 ≤ int64Max) :
    timestampOfWire usecs = pure (epoch + usecs * 1000) := by
  have scaled : op (usecs * 1000) = pure (usecs * 1000) := by
    apply op_eq_pure lower
    unfold epoch at upper
    omega
  have shifted : op (epoch + usecs * 1000) = pure (epoch + usecs * 1000) := by
    apply op_eq_pure _ upper
    unfold epoch
    omega
  rw [timestampOfWire, scaled, pure_bind, shifted]

/-- Receiving leaves the range above sooner than below, by the epoch. -/
theorem timestampOfWire_overflow_eq_false_iff (usecs : Int) :
    (timestampOfWire usecs).overflow = false ↔
      int64Min ≤ usecs * 1000 ∧ epoch + usecs * 1000 ≤ int64Max := by
  constructor
  · intro unmarked
    rw [timestampOfWire, bind_overflow_eq_false_iff, op_overflow_eq_false_iff] at unmarked
    rcases unmarked with ⟨⟨lower, upper⟩, shifted⟩
    rw [op_eq_pure lower upper] at shifted
    exact ⟨lower, (op_overflow_eq_false_iff.mp shifted).2⟩
  · rintro ⟨lower, upper⟩
    rw [timestampOfWire_eq_pure lower upper]
    rfl

theorem timestampToWire_eq_pure {ticks : Int} (lower : int64Min ≤ ticks - epoch)
    (upper : ticks ≤ int64Max) :
    timestampToWire ticks = pure ((ticks - epoch).tdiv 1000) := by
  have shifted : op (ticks - epoch) = pure (ticks - epoch) := by
    apply op_eq_pure lower
    unfold epoch
    omega
  rw [timestampToWire, shifted, pure_bind]

/-- Sending leaves the range below only. -/
theorem timestampToWire_overflow_eq_false_iff {ticks : Int} (upper : ticks ≤ int64Max) :
    (timestampToWire ticks).overflow = false ↔ int64Min ≤ ticks - epoch := by
  constructor
  · intro unmarked
    rw [timestampToWire, bind_overflow_eq_false_iff, op_overflow_eq_false_iff] at unmarked
    exact unmarked.1.1
  · intro lower
    rw [timestampToWire_eq_pure lower upper]
    rfl

/-! ## Through the wire -/

theorem recv_timestamp (size : Int) (wire : Word 8) :
    Scalar.timestamp.recv size (writeWord wire) =
      .ok ((BitVec.ofInt (8 * 8) (timestampOfWire wire.toInt).value : Word 8), []) := by
  have read : readInt64 (writeWord wire ++ []) = .ok (wire.toInt, []) := by
    rw [readInt64, bind_of_ok (readWord_writeWord wire []), pure_apply]
  rw [List.append_nil] at read
  exact bind_of_ok read

/-- A wire value is refused, or received as a time point that is sent back as the
same value, and no operation overflows. -/
def WireReturns (size : Int) (wire : Word 8) : Prop :=
  (∃ error, Scalar.timestamp.recv size (writeWord wire) = .error error) ∨
    ∃ point : Word 8,
      Scalar.timestamp.recv size (writeWord wire) = .ok (point, []) ∧
      Scalar.timestamp.send point = writeWord wire ∧
      (timestampOfWire wire.toInt).overflow = false ∧
      (timestampToWire point.toInt).overflow = false

/-- What is sent for a time point is received as one that differs from it by less
than a microsecond, and no operation overflows. -/
def PointReturns (size : Int) (point : Word 8) : Prop :=
  ∃ received : Word 8,
    Scalar.timestamp.recv size (Scalar.timestamp.send point) = .ok (received, []) ∧
    |received.toInt - point.toInt| < 1000 ∧
    (timestampToWire point.toInt).overflow = false ∧
    (timestampOfWire (timestampToWire point.toInt).value).overflow = false

theorem wireReturns_iff (size : Int) (wire : Word 8) :
    WireReturns size wire ↔
      int64Min ≤ wire.toInt * 1000 ∧ epoch + wire.toInt * 1000 ≤ int64Max := by
  constructor
  · rintro (⟨error, refused⟩ | ⟨point, -, -, unmarked, -⟩)
    · rw [recv_timestamp] at refused
      cases refused
    · exact (timestampOfWire_overflow_eq_false_iff _).mp unmarked
  · rintro ⟨lower, upper⟩
    have unmarked := (timestampOfWire_overflow_eq_false_iff _).mpr ⟨lower, upper⟩
    have received := recv_timestamp size wire
    have ofWire : timestampOfWire wire.toInt = pure (epoch + wire.toInt * 1000) :=
      timestampOfWire_eq_pure lower upper
    have exactly : (BitVec.ofInt (8 * 8) (timestampOfWire wire.toInt).value : Word 8).toInt =
        epoch + wire.toInt * 1000 := by
      rw [ofWire]
      apply toInt_ofInt_word _ upper
      unfold epoch
      omega
    generalize (BitVec.ofInt (8 * 8) (timestampOfWire wire.toInt).value : Word 8) = point at *
    have toWire : timestampToWire point.toInt = pure wire.toInt := by
      rw [exactly, timestampToWire_eq_pure (by omega) upper, add_sub_cancel_left,
        Int.mul_tdiv_cancel _ (by decide)]
    have sent : Scalar.timestamp.send point = writeWord wire := by
      change writeWord (BitVec.ofInt (8 * 8) (timestampToWire point.toInt).value : Word 8) = _
      rw [toWire]
      exact congrArg writeWord BitVec.ofInt_toInt
    exact .inr ⟨point, received, sent, unmarked, by rw [toWire]; rfl⟩

/-- Truncation to whole microseconds goes towards zero and loses less than one. -/
theorem tdiv_thousand (x : Int) :
    (0 ≤ x → 0 ≤ x.tdiv 1000 ∧ x - 1000 < x.tdiv 1000 * 1000 ∧ x.tdiv 1000 * 1000 ≤ x) ∧
      (x < 0 → x.tdiv 1000 ≤ 0 ∧ x ≤ x.tdiv 1000 * 1000 ∧ x.tdiv 1000 * 1000 < x + 1000) := by
  constructor
  · intro nonnegative
    rw [Int.tdiv_eq_ediv_of_nonneg nonnegative]
    omega
  · intro negative
    have flipped : x.tdiv 1000 = -((-x) / 1000) := by
      rw [← Int.tdiv_eq_ediv_of_nonneg (by omega), Int.neg_tdiv, Int.neg_neg]
    rw [flipped]
    omega

theorem pointReturns_iff (size : Int) (point : Word 8) :
    PointReturns size point ↔ int64Min ≤ point.toInt - epoch := by
  have bounds := toInt_word_bounds point
  constructor
  · rintro ⟨received, -, -, unmarked, -⟩
    exact (timestampToWire_overflow_eq_false_iff bounds.2).mp unmarked
  · intro lower
    have unmarked := (timestampToWire_overflow_eq_false_iff bounds.2).mpr lower
    have toWire := timestampToWire_eq_pure lower bounds.2
    have truncated := tdiv_thousand (point.toInt - epoch)
    generalize (point.toInt - epoch).tdiv 1000 = usecs at toWire truncated
    have sent : (timestampToWire point.toInt).value = usecs := by
      rw [toWire]
      rfl
    have scaledLower : int64Min ≤ usecs * 1000 := by
      unfold int64Min at *
      omega
    have shiftedUpper : epoch + usecs * 1000 ≤ int64Max := by
      unfold int64Max epoch at *
      omega
    have inRange : (BitVec.ofInt (8 * 8) usecs : Word 8).toInt = usecs := by
      apply toInt_ofInt_word
      · unfold int64Min at *
        omega
      · unfold int64Max epoch at *
        omega
    have ofWire := timestampOfWire_eq_pure scaledLower shiftedUpper
    have back : (BitVec.ofInt (8 * 8) (timestampOfWire usecs).value : Word 8).toInt =
        epoch + usecs * 1000 := by
      rw [ofWire]
      apply toInt_ofInt_word _ shiftedUpper
      unfold epoch
      omega
    use (BitVec.ofInt (8 * 8) (timestampOfWire usecs).value : Word 8)
    constructor
    · have received := recv_timestamp size (BitVec.ofInt (8 * 8) usecs)
      rw [inRange] at received
      change Scalar.timestamp.recv size
        (writeWord (BitVec.ofInt (8 * 8) (timestampToWire point.toInt).value : Word 8)) = _
      rw [sent]
      exact received
    constructor
    · rw [back, abs_lt]
      omega
    constructor
    · exact unmarked
    · rw [sent, ofWire]
      rfl

/-- Exactly when a wire value comes back from a time point, and exactly when a
time point comes back from the wire. -/
theorem timestamps_return_iff (size : Int) (wire point : Word 8) :
    (WireReturns size wire ↔
        int64Min ≤ wire.toInt * 1000 ∧ epoch + wire.toInt * 1000 ≤ int64Max) ∧
      (PointReturns size point ↔ int64Min ≤ point.toInt - epoch) :=
  ⟨wireReturns_iff size wire, pointReturns_iff size point⟩

/-- `infinity` as the server sends it. -/
def infinity : Word 8 :=
  BitVec.ofInt (8 * 8) int64Max

/-- The value `infinity` is received as a time before the epoch, after an
overflow, and so is not sent back; the least time point overflows when it is
sent. -/
theorem timestamps_overflow :
    timestampOfWire infinity.toInt = ⟨epoch - 1000, true⟩ ∧
      ¬WireReturns 8 infinity ∧
      (timestampToWire int64Min).overflow = true ∧
      ¬PointReturns 8 (BitVec.ofInt (8 * 8) int64Min) := by
  constructor
  · decide
  constructor
  · rw [wireReturns_iff]
    decide
  constructor
  · decide
  · rw [pointReturns_iff]
    decide

end Bozo.Io
