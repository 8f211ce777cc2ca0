import Bozo.Bytes.Order
import Mathlib.Algebra.BigOperators.Group.List.Basic

/-!
# Parts laid end to end

The start of a part in a concatenation is the sum of the lengths before it.
The parts are then slices of the concatenation, they do not overlap, and
together they cover it.
-/

namespace Bozo.Bytes.Layout

variable {α : Type}

/-- Where the `i`-th of a list of lengths starts. -/
def offset (lengths : List Nat) (i : Nat) : Nat :=
  (lengths.take i).sum

@[simp]
theorem offset_zero (lengths : List Nat) : offset lengths 0 = 0 := by
  simp [offset]

theorem offset_cons_succ (length : Nat) (lengths : List Nat) (i : Nat) :
    offset (length :: lengths) (i + 1) = length + offset lengths i := by
  simp [offset]

/-- A part ends where the next one starts. -/
theorem offset_succ {lengths : List Nat} {i length : Nat} (here : lengths[i]? = some length) :
    offset lengths (i + 1) = offset lengths i + length := by
  rw [offset, List.take_add_one, here, List.sum_append]
  simp [offset]

theorem offset_mono {i j : Nat} (lengths : List Nat) (before : i ≤ j) :
    offset lengths i ≤ offset lengths j := by
  induction before with
  | refl => exact Nat.le_refl _
  | step _ ih =>
      apply Nat.le_trans ih
      rw [offset, offset, List.take_add_one, List.sum_append]
      exact Nat.le_add_right _ _

/-- An earlier part ends before a later one starts. -/
theorem offset_add_le {lengths : List Nat} {i j length : Nat} (before : i < j)
    (here : lengths[i]? = some length) : offset lengths i + length ≤ offset lengths j := by
  rw [← offset_succ here]
  exact offset_mono lengths before

/-- Each part is the slice of its length at its start. -/
theorem slice_flatten {parts : List (List α)} {i : Nat} {part : List α}
    (here : parts[i]? = some part) :
    (parts.flatten.drop (offset (parts.map List.length) i)).take part.length = part := by
  rcases List.getElem?_eq_some_iff.mp here with ⟨bound, rfl⟩
  rw [offset, List.drop_sum_flatten, List.drop_eq_getElem_cons bound, List.flatten_cons]
  exact List.take_left

/-- Every position of the concatenation lies in a part. -/
theorem exists_part {lengths : List Nat} {position : Nat} (inside : position < lengths.sum) :
    ∃ i length, lengths[i]? = some length ∧ offset lengths i ≤ position ∧
      position < offset lengths i + length := by
  induction lengths generalizing position with
  | nil => simp at inside
  | cons length lengths ih =>
      by_cases first : position < length
      · exact ⟨0, length, rfl, by simp, by simpa using first⟩
      · rw [List.sum_cons] at inside
        rcases @ih (position - length) (by omega) with ⟨i, other, here, lower, upper⟩
        refine ⟨i + 1, other, by simpa using here, ?_, ?_⟩
        · rw [offset_cons_succ]
          omega
        · rw [offset_cons_succ]
          omega

end Bozo.Bytes.Layout
