import Bozo.Io.Rows
import Mathlib.Data.List.Forall2

/-!
# Results into containers

The rows of a result are inserted into a container one after another as they
are decoded.
-/

namespace Bozo.Io

/-- An insert iterator into a sequence, by what an assignment through it does to
the container. -/
structure Inserter (α : Type) where
  Container : Type
  insert : Container → α → Container
  size : Container → Nat
  size_insert : ∀ container value, size (insert container value) = size container + 1

namespace Inserter

variable {α : Type} (out : Inserter α)

/-- The values are inserted in order. -/
def insertAll (container : out.Container) (values : List α) : out.Container :=
  values.foldl out.insert container

theorem insertAll_append (container : out.Container) (first second : List α) :
    out.insertAll container (first ++ second) =
      out.insertAll (out.insertAll container first) second :=
  List.foldl_append

theorem size_insertAll (container : out.Container) (values : List α) :
    out.size (out.insertAll container values) = out.size container + values.length := by
  induction values generalizing container with
  | nil => rfl
  | cons value values ih =>
      have rest := ih (out.insert container value)
      rw [out.size_insert] at rest
      rw [List.length_cons, Nat.add_comm values.length, ← Nat.add_assoc]
      exact rest

/-- Whatever is inserted before remains to be seen. -/
theorem insertAll_append_eq_iff (container : out.Container) (first second : List α) :
    out.insertAll container (first ++ second) = out.insertAll container second ↔ first = [] := by
  constructor
  · intro same
    have sizes := congrArg out.size same
    rw [size_insertAll, size_insertAll, List.length_append] at sizes
    exact List.eq_nil_of_length_eq_zero (by omega)
  · rintro rfl
    rfl

/-- `std::back_inserter` of a vector. -/
def back (α : Type) : Inserter α where
  Container := List α
  insert container value := container ++ [value]
  size := List.length
  size_insert _ _ := List.length_append

end Inserter

/-! ## The rows of a result -/

section Result

variable (map : OidMap) (o : RowOut) (out : Inserter o.Val)

/-- `recv_result` for an insert iterator: the container, and the exception that
ends the loop. -/
def recvResult : List Row → out.Container → out.Container × Option RowError
  | [], container => (container, none)
  | row :: rows, container =>
      match recvRow map o row o.default with
      | .ok value => recvResult rows (out.insert container value)
      | .error e => (container, some e)

/-- The values of the rows up to the first one that cannot be decoded. -/
def decoded : List Row → List o.Val
  | [] => []
  | row :: rows =>
      match recvRow map o row o.default with
      | .ok value => value :: decoded rows
      | .error _ => []

/-- The first exception. -/
def decodeError : List Row → Option RowError
  | [] => none
  | row :: rows =>
      match recvRow map o row o.default with
      | .ok _ => decodeError rows
      | .error e => some e

/-- The rows decode to the values, one by one. -/
def Decode (rows : List Row) (values : List o.Val) : Prop :=
  List.Forall₂ (fun row value => recvRow map o row o.default = .ok value) rows values

variable {map o}

theorem recvResult_eq (rows : List Row) (container : out.Container) :
    recvResult map o out rows container =
      (out.insertAll container (decoded map o rows), decodeError map o rows) := by
  induction rows generalizing container with
  | nil => rfl
  | cons row rows ih =>
      cases first : recvRow map o row o.default with
      | ok value =>
          simp only [recvResult, decoded, decodeError, first]
          exact ih (out.insert container value)
      | error e =>
          simp only [recvResult, decoded, decodeError, first]
          rfl

/-- Without an exception all rows are decoded. -/
theorem decode_iff_of_decodeError {rows : List Row} (none : decodeError map o rows = none)
    (values : List o.Val) : Decode map o rows values ↔ values = decoded map o rows := by
  unfold Decode
  induction rows generalizing values with
  | nil => exact List.forall₂_nil_left_iff
  | cons row rows ih =>
      cases first : recvRow map o row o.default with
      | error e =>
          simp only [decodeError, first] at none
          cases none
      | ok value =>
          simp only [decodeError, first] at none
          rw [List.forall₂_cons_left_iff]
          simp only [decoded, first]
          constructor
          · rintro ⟨_, others, ⟨⟩, rest, rfl⟩
            rw [(ih none others).mp rest]
          · rintro rfl
            exact ⟨value, _, rfl, (ih none _).mpr rfl, rfl⟩

theorem decoded_ne_nil_iff (rows : List Row) :
    decoded map o rows ≠ [] ↔
      ∃ row value, rows.head? = some row ∧ recvRow map o row o.default = .ok value := by
  cases rows with
  | nil =>
      apply iff_of_false
      · exact fun some => some rfl
      · rintro ⟨row, value, none, -⟩
        cases none
  | cons row rows =>
      cases first : recvRow map o row o.default with
      | ok value =>
          apply iff_of_true
          · simp only [decoded, first]
            exact List.cons_ne_nil _ _
          · exact ⟨row, value, rfl, first⟩
      | error e =>
          apply iff_of_false
          · simp only [decoded, first]
            exact fun some => some rfl
          · rintro ⟨_, value, ⟨⟩, succeeds⟩
            rw [first] at succeeds
            cases succeeds

end Result

end Bozo.Io
