import Bozo.Bytes.Order

/-!
# Signed 64-bit arithmetic with an overflow mark

A computation carries the two's-complement value of every operation and
remembers whether one of the operations evaluated so far left the 64-bit
range.
-/

namespace Bozo.Bytes

/-- A value and whether an operation on the way to it overflowed. -/
structure Checked (α : Type) where
  value : α
  overflow : Bool
  deriving DecidableEq

namespace Checked

instance : Monad Checked where
  pure value := ⟨value, false⟩
  bind first next := ⟨(next first.value).value, first.overflow || (next first.value).overflow⟩

/-- The smallest signed 64-bit integer. -/
def int64Min : Int := -2 ^ 63

/-- The largest signed 64-bit integer. -/
def int64Max : Int := 2 ^ 63 - 1

/-- Conversion of an integer to a signed 64-bit one, modulo `2 ^ 64`. -/
def int64 (x : Int) : Int :=
  Int.bmod x (2 ^ 64)

/-- One signed 64-bit operation with the exact result `x`. -/
def op (x : Int) : Checked Int :=
  ⟨int64 x, decide (int64 x ≠ x)⟩

theorem int64_eq_self {x : Int} (lower : int64Min ≤ x) (upper : x ≤ int64Max) :
    int64 x = x := by
  unfold int64 int64Min int64Max at *
  rw [Int.bmod_def]
  omega

/-- A word holds what is in range. -/
theorem toInt_ofInt_word {x : Int} (lower : int64Min ≤ x) (upper : x ≤ int64Max) :
    (BitVec.ofInt (8 * 8) x : Word 8).toInt = x := by
  rw [BitVec.toInt_ofInt]
  exact int64_eq_self lower upper

theorem toInt_word_bounds (x : Word 8) : int64Min ≤ x.toInt ∧ x.toInt ≤ int64Max := by
  constructor
  · exact BitVec.le_toInt x
  · have bound := BitVec.toInt_lt (x := x)
    unfold int64Max
    omega

/-- An operation whose exact result is in range returns it without a mark. -/
theorem op_eq_pure {x : Int} (lower : int64Min ≤ x) (upper : x ≤ int64Max) :
    op x = pure x := by
  simp only [op, int64_eq_self lower upper, ne_eq, not_true_eq_false, decide_false]
  rfl

/-- An operation leaves no mark exactly when its exact result is in range. -/
theorem op_overflow_eq_false_iff {x : Int} :
    (op x).overflow = false ↔ int64Min ≤ x ∧ x ≤ int64Max := by
  constructor
  · intro unmarked
    have same : int64 x = x := by simpa [op] using unmarked
    unfold int64 at same
    rw [Int.bmod_def] at same
    unfold int64Min int64Max
    omega
  · rintro ⟨lower, upper⟩
    rw [op_eq_pure lower upper]
    rfl

/-- A computation leaves no mark when none of its steps does. -/
theorem bind_overflow_eq_false_iff {α β : Type} (first : Checked α) (next : α → Checked β) :
    (first >>= next).overflow = false ↔
      first.overflow = false ∧ (next first.value).overflow = false :=
  Bool.or_eq_false_iff

instance : LawfulMonad Checked :=
  LawfulMonad.mk' Checked
    (by
      intro α computation
      cases computation
      simp [Functor.map])
    (by
      intro α β value next
      simp only [pure, bind, Bool.false_or])
    (by
      intro α β γ first second third
      simp only [bind, Bool.or_assoc])

end Checked

end Bozo.Bytes
