import Bozo.Bytes.Layout
import Bozo.Io.SizeAgreement

/-!
# Binary queries

A binary query is what libpq is given for a query with parameters: a buffer with
the encoded parameters, and for each parameter its type, its length and where
its encoding starts in the buffer.  The lengths come from `size_of`, the buffer
from `send`, and a parameter without a length has no start.
-/

namespace Bozo.Io

open Bozo.Bytes
open Bozo.Bytes.Layout

/-- A query parameter: a value of some slot. -/
structure Param where
  slot : Slot
  value : slot.Val

namespace Param

def isNull (p : Param) : Bool :=
  p.slot.isNull p.value

def sizeOf (p : Param) : Int :=
  p.slot.sizeOf p.value

def send (map : OidMap) (p : Param) : List UInt8 :=
  p.slot.send map p.value

def typeOid (map : OidMap) (p : Param) : Oid :=
  p.slot.typeOid map

end Param

/-- The members of `binary_query::impl_type`.  A pointer into the buffer is its
offset from the start, and a null pointer is `none`. -/
structure BinaryQuery where
  text : List UInt8
  buffer : List UInt8
  types : List Oid
  formats : List Int
  lengths : List Int
  values : List (Option Nat)

namespace BinaryQuery

/-- `binary_format`. -/
def binaryFormat : Int := 1

/-- The loop that assigns `values_`, from an offset on. -/
def place (offset : Nat) : List Int → List (Option Nat)
  | [] => []
  | length :: lengths =>
      (if length = 0 then none else some offset) :: place (offset + length.toNat) lengths

/-- What `reserve` is called with: the sum of the lengths in `int`. -/
def reserved (lengths : List Int) : Int :=
  lengths.foldr (fun length sum => int32 (length + sum)) 0

/-- The exception of `std::vector::reserve`. -/
inductive BuildError
  | lengthError
  deriving DecidableEq

/-- The constructor of `binary_query`. -/
def build (text : List UInt8) (params : List Param) (map : OidMap) :
    Except BuildError BinaryQuery :=
  let lengths := params.map fun p => max 0 p.sizeOf
  -- a negative sum is converted to an unsigned one beyond any maximal size
  if reserved lengths < 0 then
    .error .lengthError
  else
    .ok
      { text := text
        buffer := (params.map (Param.send map)).flatten
        types := params.map (Param.typeOid map)
        formats := params.map fun _ => binaryFormat
        lengths := lengths
        values := place 0 lengths }

/-- The constructor either fails to reserve or lays the parameters out. -/
theorem build_eq_ok_iff {text : List UInt8} {params : List Param} {map : OidMap}
    {query : BinaryQuery} :
    build text params map = .ok query ↔
      0 ≤ reserved (params.map fun p => max 0 p.sizeOf) ∧
        query =
          { text := text
            buffer := (params.map (Param.send map)).flatten
            types := params.map (Param.typeOid map)
            formats := params.map fun _ => binaryFormat
            lengths := params.map fun p => max 0 p.sizeOf
            values := place 0 (params.map fun p => max 0 p.sizeOf) } := by
  simp only [build]
  split <;> rename_i negative
  · simp only [reduceCtorEq, false_iff]
    rintro ⟨nonneg, -⟩
    omega
  · rw [Except.ok.injEq]
    constructor
    · rintro rfl
      exact ⟨by omega, rfl⟩
    · rintro ⟨-, rfl⟩
      rfl

/-- Each value starts behind the lengths before it, unless its own is zero. -/
theorem place_getElem? (start : Nat) (lengths : List Int) (i : Nat) :
    (place start lengths)[i]? = lengths[i]?.map fun length =>
      if length = 0 then none else some (start + offset (lengths.map Int.toNat) i) := by
  induction lengths generalizing start i with
  | nil => simp [place]
  | cons length lengths ih =>
      cases i with
      | zero => simp [place]
      | succ i =>
          rw [place, List.getElem?_cons_succ, ih, List.getElem?_cons_succ, List.map_cons,
            offset_cons_succ, Nat.add_assoc]

end BinaryQuery

/-! ## Null parameters -/

/-- A value of a text type without any bytes. -/
def Scalar.EmptyString : (s : Scalar) → s.Val → Prop
  | .text, v | .bytea, v | .name, v | .json, v => v = ([] : List UInt8)
  | _, _ => False

def Ty.EmptyString : (t : Ty) → t.Val → Prop
  | .scalar s, v => s.EmptyString v
  | .array _ _, _ | .composite _ _, _ => False

/-- A non-null empty string. -/
def Slot.EmptyString : (s : Slot) → s.Val → Prop
  | .plain type, v => type.EmptyString v
  | .nullable _, none => False
  | .nullable type, some v => type.EmptyString v
  | .null, _ => False

theorem Scalar.sizeOf_eq_zero_iff (s : Scalar) (v : s.Val) : s.sizeOf v = 0 ↔ s.EmptyString v := by
  cases s with
  | text | bytea | name | json =>
      exact Int.natCast_eq_zero.trans List.length_eq_zero_iff
  | jsonb | ltree =>
      have positive : ∀ n : Nat, ¬ (n : Int) + 1 = 0 := by omega
      exact iff_of_false (positive _) id
  | bool | char => exact iff_of_false (by decide : ¬ (1 : Int) = 0) id
  | int2 => exact iff_of_false (by decide : ¬ (2 : Int) = 0) id
  | int4 | oid | float4 => exact iff_of_false (by decide : ¬ (4 : Int) = 0) id
  | int8 | float8 | timestamp => exact iff_of_false (by decide : ¬ (8 : Int) = 0) id
  | uuid | interval => exact iff_of_false (by decide : ¬ (16 : Int) = 0) id

/-- Empty strings are the only objects with an empty encoding. -/
theorem Ty.length_sendImpl_eq_zero_iff (map : OidMap) (t : Ty) (v : t.Val) :
    (t.sendImpl map v).length = 0 ↔ t.EmptyString v := by
  cases t with
  | scalar s =>
      have length := s.length_send v
      have empty : (s.send v).length = 0 ↔ s.sizeOf v = 0 := by omega
      exact empty.trans (s.sizeOf_eq_zero_iff v)
  | array bound element =>
      simp only [Ty.sendImpl, Ty.EmptyString, List.length_append, length_sendArrayHeader, iff_false]
      omega
  | composite kind fields =>
      simp only [Ty.sendImpl, Ty.EmptyString, List.length_append, length_writeInt32, iff_false]
      omega

theorem Slot.emptyString_iff (map : OidMap) (s : Slot) (v : s.Val) :
    s.EmptyString v ↔ s.isNull v = false ∧ (s.send map v).length = 0 := by
  cases s with
  | plain type =>
      simp only [Slot.EmptyString, Slot.isNull, Slot.send, true_and]
      exact (type.length_sendImpl_eq_zero_iff map v).symm
  | nullable type =>
      cases v with
      | none => simp [Slot.EmptyString, Slot.isNull]
      | some v =>
          simp only [Slot.EmptyString, Slot.isNull, Slot.send, Option.isNone_some, true_and]
          exact (type.length_sendImpl_eq_zero_iff map v).symm
  | null => simp [Slot.EmptyString, Slot.isNull]

namespace BinaryQuery

section Built

variable {text : List UInt8} {params : List Param} {map : OidMap} {query : BinaryQuery}
  {i : Nat} {p : Param}

theorem values_getElem?_eq_none_iff (built : build text params map = .ok query)
    (here : params[i]? = some p) : query.values[i]? = some none ↔ p.sizeOf ≤ 0 := by
  rcases build_eq_ok_iff.mp built with ⟨-, rfl⟩
  simp only [place_getElem?, List.getElem?_map, here, Option.map_some]
  by_cases positive : 0 < p.sizeOf
  · have nonzero : ¬ max 0 p.sizeOf = 0 := by omega
    simp only [nonzero, if_false, Option.some.injEq, reduceCtorEq, false_iff]
    omega
  · have zero : max 0 p.sizeOf = 0 := by omega
    simp only [zero, if_true, true_iff]
    omega

/-- A value pointer is null for null parameters only, exactly when the size of
a non-null parameter is positive; among encodings in range and with uniform
nulls, exactly the empty strings fail that. -/
theorem values_null_iff (text : List UInt8) (params : List Param) (map : OidMap) (i : Nat)
    (built : build text params map = .ok query) (here : params[i]? = some p) :
    ((query.values[i]? = some none ↔ p.isNull = true) ↔ (p.isNull = true ∨ 0 < p.sizeOf)) ∧
      ((p.send map).length < 2 ^ 31 →
        p.slot.Everywhere (Slot.Holds Ty.NullsUniform) p.value →
          ((query.values[i]? = some none ↔ p.isNull = true) ↔
            ¬ p.slot.EmptyString p.value)) := by
  have pointer := values_getElem?_eq_none_iff built here
  have nullSize : p.isNull = true → p.sizeOf = nullStateSize :=
    p.slot.sizeOf_of_isNull p.value
  have condition : (query.values[i]? = some none ↔ p.isNull = true) ↔
      (p.isNull = true ∨ 0 < p.sizeOf) := by
    rw [pointer]
    cases null : p.isNull with
    | true =>
        have size := nullSize null
        simp only [size, nullStateSize, true_or, iff_true]
        omega
    | false =>
        simp only [Bool.false_eq_true, iff_false, false_or]
        omega
  constructor
  · exact condition
  · intro short uniform
    rw [condition, p.slot.emptyString_iff map]
    have exactly := ((p.slot.everywhere_iff p.value).mp
      ((p.slot.sizeExact_everywhere_iff map p.value short).mpr uniform)).1
    cases null : p.isNull with
    | true =>
        have isNull : p.slot.isNull p.value = true := null
        simp [isNull]
    | false =>
        have size : p.sizeOf = (p.slot.send map p.value).length := exactly null
        have nonNull : p.slot.isNull p.value = false := null
        simp only [size, nonNull, Bool.false_eq_true, false_or, true_and]
        omega

end Built

/-- A tuple of one empty string. -/
def emptyText : List Param :=
  [⟨.plain (.scalar .text), ([] : List UInt8)⟩]

/-- The pointer of an empty string is null. -/
theorem values_emptyText :
    build [] emptyText (fun _ => 0) =
        .ok ⟨[], [], [25], [1], [0], [none]⟩ ∧
      (emptyText.map Param.isNull) = [false] :=
  ⟨rfl, rfl⟩

/-- A tuple of a string and a null. -/
def textAndNull : List Param :=
  [⟨.plain (.scalar .text), ([7] : List UInt8)⟩, ⟨.null, ()⟩]

theorem values_null_textAndNull :
    (⟨[], [7], [25, 0], [1, 1], [1, 0], [some 0, none]⟩ : BinaryQuery).values[0]? = some none ↔
      (⟨.plain (.scalar .text), ([7] : List UInt8)⟩ : Param).isNull = true :=
  (values_null_iff [] textAndNull (fun _ => 0) 0 rfl rfl).1.mpr
    (.inr (by decide))

/-! ## Layout -/

/-- The computed sizes of the parameters are right and their total is in
range. -/
structure Sized (map : OidMap) (params : List Param) : Prop where
  size : ∀ p ∈ params, p.isNull = false → p.sizeOf = (p.send map).length
  total : (params.map fun p => (p.send map).length).sum < 2 ^ 31

theorem Sized.length_eq {map : OidMap} {params : List Param} (sized : Sized map params) :
    (params.map fun p => max 0 p.sizeOf) = params.map fun p => ((p.send map).length : Int) := by
  apply List.map_congr_left
  intro p member
  cases null : p.isNull with
  | true =>
      have size : p.sizeOf = nullStateSize := p.slot.sizeOf_of_isNull p.value null
      have sent : p.send map = [] := p.slot.send_of_isNull map p.value null
      rw [size, sent]
      rfl
  | false =>
      have size := sized.size p member null
      omega

/-- A sum of natural numbers below `2 ^ 31` does not wrap. -/
theorem reserved_natCast (lengths : List Nat) (upper : lengths.sum < 2 ^ 31) :
    reserved (lengths.map fun length : Nat => (length : Int)) = lengths.sum := by
  induction lengths with
  | nil => rfl
  | cons length lengths ih =>
      rw [List.sum_cons] at upper
      have rest := ih (by omega)
      rw [reserved, List.map_cons, List.foldr_cons, ← reserved, rest, List.sum_cons,
        ← Int.natCast_add]
      exact int32_natCast upper

/-- The value of parameter `i` is at `start` in the buffer and `length` bytes
long. -/
def Region (query : BinaryQuery) (i start length : Nat) : Prop :=
  query.values[i]? = some (some start) ∧ query.lengths[i]? = some (length : Int)

/-- The layout of a query: encodings in order, and a region of the buffer for
each that is not empty. -/
structure LaidOut (map : OidMap) (params : List Param) (query : BinaryQuery) : Prop where
  buffer_eq : query.buffer = (params.map (Param.send map)).flatten
  types_eq : query.types = params.map (Param.typeOid map)
  lengths_eq : query.lengths = params.map fun p => ((p.send map).length : Int)
  located : ∀ i length, query.lengths[i]? = some length → 0 < length →
    ∃ start, query.Region i start length.toNat
  content : ∀ i start length, query.Region i start length →
    ∃ p, params[i]? = some p ∧ (query.buffer.drop start).take length = p.send map
  contiguous : ∀ i start length, query.Region i start length →
    (start : Int) = (query.lengths.take i).sum
  ordered : ∀ i j start start' length length', i < j → query.Region i start length →
    query.Region j start' length' → start + length ≤ start'
  covering : ∀ position, position < query.buffer.length →
    ∃ i start length, query.Region i start length ∧ start ≤ position ∧ position < start + length

/-- The query that is built for parameters whose sizes are right. -/
def laidOut (text : List UInt8) (map : OidMap) (params : List Param) : BinaryQuery where
  text := text
  buffer := (params.map (Param.send map)).flatten
  types := params.map (Param.typeOid map)
  formats := params.map fun _ => binaryFormat
  lengths := params.map fun p => ((p.send map).length : Int)
  values := place 0 (params.map fun p => ((p.send map).length : Int))

theorem build_of_sized {map : OidMap} {params : List Param} (sized : Sized map params)
    (text : List UInt8) : build text params map = .ok (laidOut text map params) := by
  have sum := reserved_natCast (params.map fun p => (p.send map).length) sized.total
  rw [List.map_map] at sum
  rw [build_eq_ok_iff, sized.length_eq]
  refine ⟨?_, rfl⟩
  have nonneg : (0 : Int) ≤ ((params.map fun p => (p.send map).length).sum : Nat) := by omega
  exact le_of_le_of_eq nonneg sum.symm

/-- The regions of a query are the non-empty encodings at their offsets. -/
theorem region_laidOut_iff {text : List UInt8} {map : OidMap} {params : List Param}
    {i start length : Nat} :
    (laidOut text map params).Region i start length ↔
      ∃ p, params[i]? = some p ∧ length = (p.send map).length ∧ 0 < length ∧
        start = offset (params.map fun p => (p.send map).length) i := by
  have lengths : (params.map fun p => ((p.send map).length : Int)).map Int.toNat =
      params.map fun p => (p.send map).length := by
    rw [List.map_map]
    rfl
  simp only [Region, laidOut, place_getElem?, lengths, List.getElem?_map, Nat.zero_add]
  cases here : params[i]? with
  | none => simp
  | some p =>
      by_cases empty : (p.send map).length = 0
      · simp only [Option.map_some, empty, Int.natCast_zero, if_true, Option.some.injEq,
          reduceCtorEq, false_and, false_iff]
        rintro ⟨q, rfl, rfl, positive, -⟩
        omega
      · have nonzero : ¬ ((p.send map).length : Int) = 0 := by omega
        simp only [Option.map_some, nonzero, if_false, Option.some.injEq, exists_eq_left',
          Int.natCast_inj]
        constructor
        · rintro ⟨rfl, rfl⟩
          exact ⟨rfl, by omega, rfl⟩
        · rintro ⟨rfl, -, rfl⟩
          exact ⟨rfl, rfl⟩

theorem laidOut_laidOut (text : List UInt8) (map : OidMap) (params : List Param) :
    LaidOut map params (laidOut text map params) where
  buffer_eq := rfl
  types_eq := rfl
  lengths_eq := rfl
  located := by
    intro i length here positive
    simp only [laidOut, List.getElem?_map, Option.map_eq_some_iff] at here
    rcases here with ⟨p, here, rfl⟩
    refine ⟨_, region_laidOut_iff.mpr ⟨p, here, rfl, ?_, rfl⟩⟩
    omega
  content := by
    intro i start length region
    rcases region_laidOut_iff.mp region with ⟨p, here, rfl, -, rfl⟩
    refine ⟨p, here, ?_⟩
    have part : (params.map (Param.send map))[i]? = some (p.send map) := by
      rw [List.getElem?_map, here]
      rfl
    have slice := slice_flatten part
    rw [List.map_map] at slice
    exact slice
  contiguous := by
    intro i start length region
    rcases region_laidOut_iff.mp region with ⟨p, here, rfl, -, rfl⟩
    simp only [laidOut, offset, ← List.map_take]
    induction params.take i with
    | nil => rfl
    | cons q params ih =>
        rw [List.map_cons, List.map_cons, List.sum_cons, List.sum_cons, ← ih]
        omega
  ordered := by
    intro i j start start' length length' before first second
    rcases region_laidOut_iff.mp first with ⟨p, here, rfl, -, rfl⟩
    rcases region_laidOut_iff.mp second with ⟨q, there, rfl, -, rfl⟩
    apply offset_add_le before
    rw [List.getElem?_map, here]
    rfl
  covering := by
    intro position inside
    have total : position < (params.map fun p => (p.send map).length).sum := by
      simpa [laidOut, List.length_flatten, Function.comp_def] using inside
    rcases exists_part total with ⟨i, length, here, lower, upper⟩
    rw [List.getElem?_map, Option.map_eq_some_iff] at here
    rcases here with ⟨p, here, rfl⟩
    exact ⟨i, _, _, region_laidOut_iff.mpr ⟨p, here, rfl, by omega, rfl⟩, lower, upper⟩

/-- When the computed sizes are right and their total is in range, the query is
built and laid out. -/
theorem build_laidOut (text : List UInt8) (map : OidMap) (params : List Param)
    (sized : Sized map params) :
    ∃ query, build text params map = .ok query ∧ LaidOut map params query :=
  ⟨laidOut text map params, build_of_sized sized text, laidOut_laidOut text map params⟩

theorem build_laidOut_textAndNull :
    ∃ query, build [] textAndNull (fun _ => 0) = .ok query ∧
      LaidOut (fun _ => 0) textAndNull query := by
  apply build_laidOut
  constructor
  · intro p member nonNull
    rcases List.mem_cons.mp member with rfl | member
    · rfl
    · rcases List.mem_cons.mp member with rfl | member
      · cases nonNull
      · cases member
  · decide

end BinaryQuery

end Bozo.Io
