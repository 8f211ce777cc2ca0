import Bozo.QueryBuilder
import Bozo.Numbering.Text

/-!
# The placeholders in a built text

The text of a query and its parameters are kept apart from each other and belong
together by the numbers in the text.  Putting the parameters back in the place
of their numbers gives the pieces of the query, each parameter with its own
value, unless a number runs into what follows it.
-/

namespace Bozo.QueryBuilder

open Bozo.Numbering

universe u

variable {α : Type u}

/-- A piece with the value of its parameter. -/
def Piece.items : Piece α → List (Item (Option (Value α)))
  | .text _ value => value.map .char
  | .param a => [.param (some (.plain a))]

/-- Pieces with the numbers of their parameters. -/
def numbered (first : Nat) : List (Piece α) → List (Item Nat)
  | [] => []
  | .text _ value :: pieces => value.map .char ++ numbered first pieces
  | .param _ :: pieces => .param first :: numbered (first + 1) pieces

theorem shown_numbered (first : Nat) (pieces : List (Piece α)) :
    shown (numbered first pieces) = renderFrom first pieces := by
  induction pieces generalizing first with
  | nil => rfl
  | cons piece pieces ih =>
      rw [renderFrom_cons]
      cases piece with
      | text type value =>
          rw [numbered, shown_append, shown_map_char, ih]
          rfl
      | param a =>
          rw [numbered, shown_cons, ih]
          rfl

/-- Every number stands for the value of its own parameter. -/
theorem map_numbered (before : List (Value α)) (pieces : List (Piece α)) :
    (numbered (before.length + 1) pieces).map
        (Item.map (parameter (before ++ (pieces.filterMap Piece.param?).map .plain))) =
      pieces.flatMap Piece.items := by
  induction pieces generalizing before with
  | nil => rfl
  | cons piece pieces ih =>
      cases piece with
      | text type value =>
          have chars : ∀ f : Nat → Option (Value α),
              (value.map Item.char).map (Item.map f) = value.map Item.char := fun f => by
            rw [List.map_map]
            rfl
          rw [numbered, List.map_append, chars, List.flatMap_cons]
          exact congrArg (value.map Item.char ++ ·) (ih before)
      | param a =>
          have own : parameter (before ++ .plain a :: (pieces.filterMap Piece.param?).map .plain)
              (before.length + 1) = some (Value.plain a) := by
            simp [parameter]
          have others := ih (before ++ [.plain a])
          rw [List.length_append, List.append_assoc] at others
          rw [numbered, List.map_cons, List.flatMap_cons]
          exact congrArg₂ List.cons (congrArg Item.param own) others

/-- The text of a builder that flattens its expression, with the parameters put
back in the place of their numbers, is the pieces in order exactly if no digit
follows a parameter or a dollar sign. -/
theorem built_text_filled_iff {e : Expr α} (starts : e.StartsWithText)
    (category : e.category = .builder) (compiles : e.Compiles) (moved : e.Moved)
    (oneType : e.OneTextType) :
    ∃ elements isNamed value, e.eval = some ⟨.builder elements, isNamed⟩ ∧
      text elements = some value ∧
      (filled (params elements) value = e.flatten.flatMap Piece.items ↔
        Separate (e.flatten.flatMap Piece.items)) := by
  rcases Expr.exists_builder category compiles with ⟨elements, isNamed, built⟩
  have flattens := (Expr.flattens_iff built starts).mpr ⟨moved, oneType⟩
  have values := map_numbered [] e.flatten
  rw [List.nil_append, ← flattens.params_eq] at values
  refine ⟨elements, isNamed, _, built, flattens.text_eq, ?_⟩
  rw [← shown_numbered, ← values, separate_map_iff]
  exact filled_shown_iff

theorem built_text_filled_sumOfParams :
    ∃ elements isNamed value, sumOfParams.eval = some ⟨.builder elements, isNamed⟩ ∧
      text elements = some value ∧
      filled (params elements) value = sumOfParams.flatten.flatMap Piece.items := by
  have separate : Separate (sumOfParams.flatten.flatMap Piece.items) := by decide
  rcases built_text_filled_iff startsWithText_sumOfParams rfl compiles_sumOfParams
    moved_sumOfParams oneTextType_sumOfParams with ⟨elements, isNamed, value, built, shown, filled⟩
  exact ⟨elements, isNamed, value, built, shown, filled.mpr separate⟩

end Bozo.QueryBuilder
