import Bozo.Io.BinaryQuery
import Bozo.Io.RoundTrip
import Bozo.Io.Rows
import Mathlib.Algebra.Order.BigOperators.Group.List
import Mathlib.Algebra.Order.Group.Nat

/-!
# Parameters that come back

A query such as `SELECT $1, $2` returns its parameters as a row.  What libpq
reads out of a binary query goes to the server, and the row that comes back is
received like any other, so the parameters can be compared with the values they
are received as.
-/

namespace Bozo.Io

open Bozo.Bytes
open Bozo.Bytes.Layout

/-- The members of a sequence as query parameters. -/
def Fields.params : (fields : Fields) → fields.Val → List Param
  | .nil, _ => []
  | .cons head tail, v => ⟨head, v.1⟩ :: tail.params v.2

namespace BinaryQuery

/-- What `PQsendQueryParams` reads for the parameters: the types, and as many
bytes as the length says unless the pointer is null. -/
def arguments (query : BinaryQuery) : List (Oid × Option (List UInt8)) :=
  List.zipWith
    (fun oid place => (oid, place.1.map fun start =>
      (query.buffer.drop start).take place.2.toNat))
    query.types (query.values.zip query.lengths)

/-- The row of a query that selects its parameters. -/
def echo (query : BinaryQuery) : Row :=
  query.arguments.map fun argument =>
    { name := "?column?", oid := argument.1, value := argument.2 }

end BinaryQuery

/-- A parameter as a column: an empty encoding is a `NULL`. -/
def Param.column (map : OidMap) (p : Param) : Column where
  name := "?column?"
  oid := p.typeOid map
  value := if p.send map = [] then none else some (p.send map)

/-! ## The row that is returned -/

theorem BinaryQuery.arguments_getElem? (text : List UInt8) (map : OidMap) (params : List Param)
    (i : Nat) :
    (laidOut text map params).arguments[i]? = params[i]?.map fun p =>
      (p.typeOid map, if p.send map = [] then none else some (p.send map)) := by
  have lengths : (params.map fun p => ((p.send map).length : Int)).map Int.toNat =
      params.map fun p => (p.send map).length := by
    rw [List.map_map]
    rfl
  simp only [arguments, laidOut, List.getElem?_zipWith, List.getElem?_map, List.zip,
    place_getElem?, lengths, Nat.zero_add]
  cases here : params[i]? with
  | none => rfl
  | some p =>
      have part : (params.map (Param.send map))[i]? = some (p.send map) := by
        rw [List.getElem?_map, here]
        rfl
      have slice := slice_flatten part
      rw [List.map_map] at slice
      by_cases empty : p.send map = []
      · simp [empty]
      · have nonzero : ¬ ((p.send map).length : Int) = 0 := by
          rw [Int.natCast_eq_zero, List.length_eq_zero_iff]
          exact empty
        simp only [Option.map_some, nonzero, if_false, empty, Int.toNat_natCast]
        rw [show (params.map fun p => (p.send map).length) =
          params.map (List.length ∘ Param.send map) from rfl, slice]

theorem BinaryQuery.echo_laidOut (text : List UInt8) (map : OidMap) (params : List Param) :
    (laidOut text map params).echo = params.map (Param.column map) := by
  apply List.ext_getElem?
  intro i
  rw [echo, List.getElem?_map, arguments_getElem?, List.getElem?_map, Option.map_map]
  rfl

/-! ## Receiving it -/

/-- A value that is not `NULL` is read from its bytes. -/
theorem recvValue_present {map : OidMap} {s : Slot} {v out : s.Val} {column : Column}
    {bytes : List UInt8} (present : column.value = some bytes) :
    recvValue map s column out = .ok v ↔
      ∃ left, s.recv map (some column.oid) (int32 bytes.length) out bytes = .ok (v, left) := by
  unfold recvValue
  rw [present, Option.elim_some, Option.getD_some]
  cases s.recv map (some column.oid) (int32 bytes.length) out bytes with
  | error e => simp
  | ok result =>
      rcases result with ⟨value, left⟩
      simp

/-- A `NULL` is received as a null, and as nothing else. -/
theorem recvValue_null {map : OidMap} {s : Slot} (exactly : s.exactlyReceivable = true)
    {v : s.Val} {column : Column} (null : column.value = none) :
    recvValue map s column s.default = .ok v ↔ s.isNull v = true := by
  unfold recvValue
  rw [null]
  simp only [Option.elim_none, Option.getD_none]
  cases s with
  | plain type =>
      cases received : Slot.recv map (some column.oid) (.plain type) nullStateSize
          (Slot.plain type).default [] with
      | error e => simp [Slot.isNull]
      | ok result => exact absurd received (recvPlain_nullStateSize _ _)
  | nullable type =>
      have received : Slot.recv map (some column.oid) (.nullable type) nullStateSize
          (Slot.nullable type).default [] = .ok (none, []) := recvNullable_nullStateSize _
      rw [received]
      cases v with
      | none => exact iff_of_true rfl rfl
      | some v =>
          refine iff_of_false (fun same => ?_) Bool.false_ne_true
          cases same
  | null => cases exactly

/-- A null has nothing inside, and no size that could be mistaken. -/
theorem Slot.sizeNotNull_of_isNull (s : Slot) (v : s.Val) (null : s.isNull v = true) :
    s.Everywhere Slot.SizeNotNull v := by
  cases s with
  | plain type => cases null
  | nullable type =>
      cases v with
      | none => exact fun nonNull => absurd nonNull Bool.true_eq_false.mp
      | some v => cases null
  | null => exact fun nonNull => absurd nonNull Bool.true_eq_false.mp

/-- A value comes back from its column unless it is an empty string or has the
null size somewhere inside. -/
theorem recvValue_column_iff (map : OidMap) (p : Param)
    (exactly : p.slot.exactlyReceivable = true) (short : (p.send map).length < 2 ^ 31)
    (size : p.isNull = false → p.sizeOf = (p.send map).length) :
    recvValue map p.slot (p.column map) p.slot.default = .ok p.value ↔
      ¬ p.slot.EmptyString p.value ∧ p.slot.Everywhere Slot.SizeNotNull p.value := by
  have accepted : ∀ sent, some (p.typeOid map) = some sent → p.slot.typeOid map = sent :=
    fun sent same => Option.some.inj same
  have emptyString := p.slot.emptyString_iff map p.value
  by_cases empty : p.send map = []
  · have null : (p.column map).value = none := if_pos empty
    have sent : p.slot.send map p.value = [] := empty
    rw [recvValue_null exactly null, emptyString, sent]
    cases isNull : p.slot.isNull p.value with
    | false => simp
    | true =>
        simp only [Bool.true_eq_false, false_and, not_false_eq_true, true_and, true_iff]
        exact p.slot.sizeNotNull_of_isNull p.value isNull
  · have present : (p.column map).value = some (p.send map) := if_neg empty
    have notEmpty : ¬ p.slot.EmptyString p.value := by
      rw [emptyString]
      exact fun both => empty (List.length_eq_zero_iff.mp both.2)
    have nonNull : p.isNull = false := by
      cases isNull : p.isNull with
      | false => rfl
      | true => exact absurd (p.slot.send_of_isNull map p.value isNull) empty
    have announced : int32 (p.send map).length = p.slot.sizeOf p.value := by
      rw [int32_natCast short]
      exact (size nonNull).symm
    rw [recvValue_present present, announced]
    constructor
    · rintro ⟨left, read⟩
      refine ⟨notEmpty, ?_⟩
      by_contra spoiled
      rw [← List.append_nil (p.send map)] at read
      exact p.slot.recv_send_ne map exactly p.value short spoiled _ [] _ left accepted read rfl
    · rintro ⟨-, notNull⟩
      have read := p.slot.recv_send map exactly p.value short notNull _ [] accepted
      rw [List.append_nil] at read
      exact ⟨[], read⟩

theorem Fields.length_params (fields : Fields) (v : fields.Val) :
    (fields.params v).length = fields.number := by
  cases fields with
  | nil => rfl
  | cons head tail => exact congrArg Nat.succ (tail.length_params v.2)

/-- The members come back from their columns exactly when each of them does. -/
theorem Fields.recvColumns_params_iff (map : OidMap) : (fields : Fields) →
    fields.exactlyReceivable = true → (v : fields.Val) →
    (∀ p ∈ fields.params v, (p.send map).length < 2 ^ 31 ∧
      (p.isNull = false → p.sizeOf = (p.send map).length)) →
    (sameNumber : ((fields.params v).map (Param.column map)).length = fields.number) →
      (fields.recvColumns map ((fields.params v).map (Param.column map)) sameNumber
          fields.default = .ok v ↔
        ∀ p ∈ fields.params v,
          ¬ p.slot.EmptyString p.value ∧ p.slot.Everywhere Slot.SizeNotNull p.value)
  | .nil, _, _, _, _ => iff_of_true rfl (fun _ member => absurd member List.not_mem_nil)
  | .cons head tail, exactly, v, sized, sameNumber => by
      simp only [Fields.exactlyReceivable, Bool.and_eq_true] at exactly
      rcases List.forall_mem_cons.mp sized with ⟨⟨short, size⟩, others⟩
      have first := recvValue_column_iff map ⟨head, v.1⟩ exactly.1 short size
      have rest := tail.recvColumns_params_iff map exactly.2 v.2 others (Nat.succ.inj sameNumber)
      refine Iff.trans ?_ (List.forall_mem_cons (l := tail.params v.2)).symm
      rw [← first, ← rest]
      simp only [Fields.params, List.map_cons, Fields.recvColumns, Fields.default]
      constructor
      · intro received
        cases firstRead : recvValue map head (Param.column map ⟨head, v.1⟩) head.default with
        | error e =>
            rw [firstRead] at received
            cases received
        | ok one =>
            cases othersRead : tail.recvColumns map ((tail.params v.2).map (Param.column map))
                (Nat.succ.inj sameNumber) tail.default with
            | error e =>
                rw [firstRead, othersRead] at received
                cases received
            | ok others =>
                rw [firstRead, othersRead] at received
                cases received
                exact ⟨rfl, rfl⟩
      · rintro ⟨firstRead, othersRead⟩
        rw [firstRead, othersRead]
        rfl

/-! ## Sent and received back -/

namespace BinaryQuery

theorem Sized.length_lt {map : OidMap} {params : List Param} (sized : Sized map params) {p : Param}
    (member : p ∈ params) : (p.send map).length < 2 ^ 31 :=
  Nat.lt_of_le_of_lt
    (List.le_sum_of_mem (List.mem_map_of_mem (f := fun p => (p.send map).length) member))
    sized.total

/-- When the computed sizes are right and their total is in range, a query that
selects its parameters gives them back exactly when none is an empty string or
has the null size somewhere inside; with nulls that are uniform in every array
of static-size elements, exactly when none is an empty string. -/
theorem recvRow_echo_iff (text : List UInt8) (map : OidMap) (fields : Fields)
    (exactly : fields.exactlyReceivable = true) (v : fields.Val)
    (sized : Sized map (fields.params v)) :
    ∃ query, build text (fields.params v) map = .ok query ∧
      (recvRowInOrder map fields query.echo fields.default = .ok v ↔
        ∀ p ∈ fields.params v,
          ¬ p.slot.EmptyString p.value ∧ p.slot.Everywhere Slot.SizeNotNull p.value) ∧
      ((∀ p ∈ fields.params v, p.slot.Everywhere (Slot.Holds Ty.NullsUniform) p.value) →
        (recvRowInOrder map fields query.echo fields.default = .ok v ↔
          ∀ p ∈ fields.params v, ¬ p.slot.EmptyString p.value)) := by
  have sameNumber : ((fields.params v).map (Param.column map)).length = fields.number := by
    rw [List.length_map, fields.length_params]
  have received : recvRowInOrder map fields (laidOut text map (fields.params v)).echo
      fields.default = .ok v ↔
        ∀ p ∈ fields.params v,
          ¬ p.slot.EmptyString p.value ∧ p.slot.Everywhere Slot.SizeNotNull p.value := by
    rw [recvRowInOrder, echo_laidOut, dif_pos sameNumber]
    exact fields.recvColumns_params_iff map exactly v
      (fun p member => ⟨sized.length_lt member, sized.size p member⟩) sameNumber
  refine ⟨_, build_of_sized sized text, received, fun uniform => ?_⟩
  rw [received]
  constructor
  · intro each p member
    exact (each p member).1
  · intro noneEmpty p member
    exact ⟨noneEmpty p member,
      p.slot.sizeNotNull_of_nullsUniform map p.value (sized.length_lt member) (uniform p member)⟩

/-- A string and an optional one. -/
def strings : Fields :=
  .cons (.plain (.scalar .text)) (.cons (.nullable (.scalar .text)) .nil)

/-- The string of one byte and a null come back. -/
theorem recvRow_echo_strings :
    ∃ query, build [] (strings.params (([7] : List UInt8), (none, ()))) (fun _ => 0) =
        .ok query ∧
      recvRowInOrder (fun _ => 0) strings query.echo strings.default =
        .ok (([7] : List UInt8), (none, ())) := by
  have sized : Sized (fun _ => 0) (strings.params (([7] : List UInt8), (none, ()))) := by
    constructor
    · intro p member nonNull
      rcases List.mem_cons.mp member with rfl | member
      · rfl
      · rcases List.mem_cons.mp member with rfl | member
        · cases nonNull
        · cases member
    · decide
  obtain ⟨query, built, received, -⟩ := recvRow_echo_iff [] (fun _ => 0) strings rfl
    (([7] : List UInt8), (none, ())) sized
  refine ⟨query, built, received.mpr fun p member => ?_⟩
  rcases List.mem_cons.mp member with rfl | member
  · refine ⟨List.cons_ne_nil _ _, ?_, trivial⟩
    exact fun _ => by decide
  · rcases List.mem_cons.mp member with rfl | member
    · exact ⟨id, fun nonNull => absurd nonNull Bool.true_eq_false.mp⟩
    · cases member

end BinaryQuery

end Bozo.Io
