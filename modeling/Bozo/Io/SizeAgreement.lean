import Bozo.Io.Send

/-!
# Computed sizes against written bytes

`size_of` and `send` traverse a value separately.  They agree on every nesting
of arrays and composites as long as the elements of each array of static-size
elements are in the same null state: the size of such an array is the data
frame size of its first element times the number of elements.
-/

namespace Bozo.Io

open Bozo.Bytes
open Bozo.Bytes.Reader

/-! ## Properties of nested values -/

mutual

/-- A property of every value strictly inside an object. -/
def Ty.Inside (P : (s : Slot) → s.Val → Prop) : (t : Ty) → t.Val → Prop
  | .scalar _, _ => True
  | .array _ element, v => ∀ item ∈ Container.items v, element.Everywhere P item
  | .composite _ fields, v => fields.Everywhere P v

/-- A property of a value and of every value nested in it. -/
def Slot.Everywhere (P : (s : Slot) → s.Val → Prop) : (s : Slot) → s.Val → Prop
  | .plain type, v => P (.plain type) v ∧ type.Inside P v
  | .nullable type, none => P (.nullable type) none
  | .nullable type, some v => P (.nullable type) (some v) ∧ type.Inside P v
  | .null, v => P .null v

/-- A property of every value nested in the members of a composite. -/
def Fields.Everywhere (P : (s : Slot) → s.Val → Prop) : (fields : Fields) → fields.Val → Prop
  | .nil, _ => True
  | .cons head tail, v => head.Everywhere P v.1 ∧ tail.Everywhere P v.2

end

/-- A property of the object inside a slot, if there is one. -/
def Slot.Holds (P : (t : Ty) → t.Val → Prop) : (s : Slot) → s.Val → Prop
  | .plain type, v => P type v
  | .nullable _, none => True
  | .nullable type, some v => P type v
  | .null, _ => True

theorem Slot.everywhere_iff {P : (s : Slot) → s.Val → Prop} (s : Slot) (v : s.Val) :
    s.Everywhere P v ↔ P s v ∧ s.Holds (Ty.Inside P) v := by
  cases s with
  | plain type => simp only [Slot.Everywhere, Slot.Holds]
  | nullable type =>
      cases v with
      | none => simp only [Slot.Everywhere, Slot.Holds, and_true]
      | some v => simp only [Slot.Everywhere, Slot.Holds]
  | null => simp only [Slot.Everywhere, Slot.Holds, and_true]

section Monotone

variable {P Q : (s : Slot) → s.Val → Prop}

mutual

theorem Ty.Inside.mono (weaken : ∀ (s : Slot) (v : s.Val), P s v → Q s v) :
    (t : Ty) → (v : t.Val) → t.Inside P v → t.Inside Q v
  | .scalar _, _, _ => trivial
  | .array _ element, _, inside => fun item member =>
      Slot.Everywhere.mono weaken element item (inside item member)
  | .composite _ fields, v, inside => Fields.Everywhere.mono weaken fields v inside

theorem Slot.Everywhere.mono (weaken : ∀ (s : Slot) (v : s.Val), P s v → Q s v) :
    (s : Slot) → (v : s.Val) → s.Everywhere P v → s.Everywhere Q v
  | .plain type, v, ⟨self, inside⟩ => ⟨weaken _ _ self, Ty.Inside.mono weaken type v inside⟩
  | .nullable _, none, self => weaken _ _ self
  | .nullable type, some v, ⟨self, inside⟩ =>
      ⟨weaken _ _ self, Ty.Inside.mono weaken type v inside⟩
  | .null, _, self => weaken _ _ self

theorem Fields.Everywhere.mono (weaken : ∀ (s : Slot) (v : s.Val), P s v → Q s v) :
    (fields : Fields) → (v : fields.Val) → fields.Everywhere P v → fields.Everywhere Q v
  | .nil, _, _ => trivial
  | .cons head tail, v, ⟨first, others⟩ =>
      ⟨Slot.Everywhere.mono weaken head v.1 first, Fields.Everywhere.mono weaken tail v.2 others⟩

end

end Monotone

/-! ## Agreement and its condition -/

/-- `size_of` of a non-null value is the number of bytes that `send` appends. -/
def Slot.SizeExact (map : OidMap) (s : Slot) (v : s.Val) : Prop :=
  s.isNull v = false → s.sizeOf v = (s.send map v).length

/-- The computed sizes of a value are the numbers of bytes written for it. -/
structure Slot.SizesAgree (map : OidMap) (s : Slot) (v : s.Val) : Prop where
  size : s.SizeExact map v
  dataFrame : s.dataFrameSize v = (s.sendDataFrame map v).length
  frame : s.frameSize v = (s.sendFrame map v).length

/-- The number of bytes of a non-null value of static size. -/
def Slot.width : Slot → Nat
  | .plain type | .nullable type => type.size.getD 0
  | .null => 0

/-- How many elements are in another null state than the first one. -/
def Slot.unlikeFirst (element : Slot) : List element.Val → Nat
  | [] => 0
  | first :: others =>
      others.countP fun item => element.isNull item != element.isNull first

/-- The bytes by which an array of static-size elements is miscounted vanish
modulo `2 ^ 32`; below `2 ^ 28` elements this says that all of them are null or
none is. -/
def Ty.NullsUniform : (t : Ty) → t.Val → Prop
  | .scalar _, _ | .composite _ _, _ => True
  | .array _ element, v =>
      2 ^ 32 ∣ element.width * element.unlikeFirst (Container.items v)

/-! ## Frames -/

theorem dataFrameSizeOf_eq {size : Int} (upper : size + 4 < 2 ^ 31) :
    dataFrameSizeOf size = 4 + max size 0 :=
  int32_eq_self (by omega) (by omega)

theorem frameSizeOf_eq {size : Int} (upper : size + 8 < 2 ^ 31) :
    frameSizeOf size = 8 + max size 0 := by
  rw [frameSizeOf, dataFrameSizeOf, int32_add_int32, int32_eq_self (by omega) (by omega)]
  omega

theorem Slot.sizeOf_of_isNull (s : Slot) (v : s.Val) (null : s.isNull v = true) :
    s.sizeOf v = nullStateSize := by
  cases s with
  | plain type => cases null
  | nullable type =>
      cases v with
      | none => simp only [Slot.sizeOf]
      | some v => cases null
  | null => simp only [Slot.sizeOf]

theorem Slot.send_of_isNull (map : OidMap) (s : Slot) (v : s.Val) (null : s.isNull v = true) :
    s.send map v = [] := by
  cases s with
  | plain type => cases null
  | nullable type =>
      cases v with
      | none => simp only [Slot.send]
      | some v => cases null
  | null => simp only [Slot.send]

theorem Slot.sizesAgree_of_isNull (map : OidMap) (s : Slot) (v : s.Val)
    (null : s.isNull v = true) : s.SizesAgree map v where
  size nonNull := by simp [null] at nonNull
  dataFrame := by
    simp only [Slot.dataFrameSize, Slot.sendDataFrame, length_dataFrame,
      s.sizeOf_of_isNull v null, s.send_of_isNull map v null]
    rfl
  frame := by
    simp only [Slot.frameSize, Slot.sendFrame, length_frame,
      s.sizeOf_of_isNull v null, s.send_of_isNull map v null]
    rfl

/-- For a non-null value all three sizes agree exactly when `size_of` is right
and the whole frame is within the range of `size_type`. -/
theorem Slot.sizesAgree_iff (map : OidMap) (s : Slot) (v : s.Val) (nonNull : s.isNull v = false) :
    s.SizesAgree map v ↔
      s.sizeOf v = (s.send map v).length ∧ (s.send map v).length + 8 < 2 ^ 31 := by
  constructor
  · intro agree
    have size := agree.size nonNull
    have frame := agree.frame
    have upper := int32_upper (4 + dataFrameSizeOf (s.sizeOf v))
    rw [Slot.frameSize, frameSizeOf, Slot.sendFrame, length_frame] at frame
    exact ⟨size, by omega⟩
  · rintro ⟨size, upper⟩
    refine ⟨fun _ => size, ?_, ?_⟩
    · rw [Slot.dataFrameSize, dataFrameSizeOf_eq (by omega), Slot.sendDataFrame, length_dataFrame]
      omega
    · rw [Slot.frameSize, frameSizeOf_eq (by omega), Slot.sendFrame, length_frame]
      omega

/-! ## Scalars -/

theorem Scalar.length_send (s : Scalar) (v : s.Val) : ((s.send v).length : Int) = s.sizeOf v := by
  cases s with
  | bool => cases v <;> rfl
  | char => rfl
  | int2 | int4 | oid | float4 | int8 | float8 =>
      simp only [Scalar.send, Scalar.sizeOf]
      rfl
  | uuid =>
      simp only [Scalar.send, Scalar.sizeOf, v.2]
      rfl
  | interval =>
      simp only [Scalar.send, Scalar.sizeOf, writeInterval, List.length_append,
        length_writeInt32, length_writeInt64]
      rfl
  | timestamp =>
      simp only [Scalar.send, Scalar.sizeOf, length_writeInt64]
      rfl
  | text | bytea | name | json => rfl
  | jsonb | ltree => rfl

theorem Scalar.sizeOf_of_size {s : Scalar} {width : Nat} (static : s.size = some width)
    (v : s.Val) : s.sizeOf v = width := by
  cases s <;> cases static <;> rfl

theorem Scalar.size_le {s : Scalar} {width : Nat} (static : s.size = some width) :
    width ≤ 16 := by
  cases s <;> cases static <;> decide

/-! ## Arrays of static-size elements -/

theorem Slot.width_le (element : Slot) : element.width ≤ 16 := by
  have ofType : ∀ type : Ty, type.size.getD 0 ≤ 16 := by
    intro type
    cases size : type.size with
    | none => simp
    | some width =>
        cases type with
        | scalar s => exact Scalar.size_le size
        | array bound element => cases size
        | composite kind fields => cases size
  cases element with
  | plain type => exact ofType type
  | nullable type => exact ofType type
  | null => exact Nat.zero_le _

theorem Slot.width_of_not_static (element : Slot) (dynamic : element.staticSize = false) :
    element.width = 0 := by
  cases element with
  | plain type =>
      have noSize : type.size = none := by simpa [Slot.staticSize] using dynamic
      simp [Slot.width, noSize]
  | nullable type =>
      have noSize : type.size = none := by simpa [Slot.staticSize] using dynamic
      simp [Slot.width, noSize]
  | null => rfl

/-- The number of payload bytes of an element of static size, by whether it is
null. -/
def Slot.payload (element : Slot) (null : Bool) : Int :=
  if null then 0 else element.width

theorem Ty.sizeOfImpl_of_static (map : OidMap) {type : Ty} (static : type.size.isSome = true)
    (v : type.Val) :
    type.sizeOfImpl v = type.size.getD 0 ∧
      ((type.sendImpl map v).length : Int) = type.size.getD 0 := by
  cases type with
  | scalar s =>
      rcases Option.isSome_iff_exists.mp static with ⟨width, size⟩
      have computed := Scalar.sizeOf_of_size size v
      have sent := s.length_send v
      simp only [Ty.sizeOfImpl, Ty.sendImpl, show (Ty.scalar s).size = some width from size,
        Option.getD_some]
      exact ⟨computed, sent.trans computed⟩
  | array bound element => cases static
  | composite kind fields => cases static

theorem Slot.static_element (map : OidMap) {element : Slot} (static : element.staticSize = true)
    (item : element.Val) :
    dataFrameSizeOf (element.sizeOf item) = 4 + element.payload (element.isNull item) ∧
      ((element.send map item).length : Int) = element.payload (element.isNull item) := by
  have narrow := element.width_le
  cases null : element.isNull item with
  | true =>
      rw [element.sizeOf_of_isNull item null, element.send_of_isNull map item null]
      exact ⟨rfl, rfl⟩
  | false =>
      -- both wrappers of a type delegate to its implementation
      have size : element.sizeOf item = element.width ∧
          ((element.send map item).length : Int) = element.width := by
        cases element with
        | plain type =>
            rcases type.sizeOfImpl_of_static map static item with ⟨computed, sent⟩
            simp only [Slot.sizeOf, Slot.send, computed, sent]
            exact ⟨int32_eq_self (by omega) (by simp only [Slot.width] at narrow; omega), rfl⟩
        | nullable type =>
            cases item with
            | none => cases null
            | some item =>
                rcases type.sizeOfImpl_of_static map static item with ⟨computed, sent⟩
                simp only [Slot.sizeOf, Slot.send, computed, sent]
                exact ⟨int32_eq_self (by omega) (by simp only [Slot.width] at narrow; omega), rfl⟩
        | null => cases null
      rw [size.1, dataFrameSizeOf_eq (by omega), size.2]
      simp [Slot.payload]

/-- The signed number of bytes that `count` elements of the other null state
add to an array whose first element has the given one. -/
def Slot.excess (element : Slot) (null : Bool) (count : Nat) : Int :=
  if null then element.width * count else -(element.width * count)

theorem Slot.dvd_excess_iff (element : Slot) (null : Bool) (count : Nat) :
    (2 ^ 32 : Int) ∣ element.excess null count ↔ 2 ^ 32 ∣ element.width * count := by
  have cast : (2 ^ 32 : Int) ∣ element.width * count ↔ 2 ^ 32 ∣ element.width * count := by
    exact_mod_cast Int.natCast_dvd_natCast (m := 2 ^ 32) (n := element.width * count)
  cases null with
  | true => exact cast
  | false => exact Int.dvd_neg.trans cast

/-- What the elements occupy, against a multiple of one element's frame. -/
theorem Slot.sum_payload (element : Slot) (null : Bool) (items : List element.Val) :
    (items.map fun item => 4 + element.payload (element.isNull item)).sum =
      (4 + element.payload null) * items.length +
        element.excess null (items.countP fun item => element.isNull item != null) := by
  induction items with
  | nil => simp [Slot.excess]
  | cons item items ih =>
      rw [List.map_cons, List.sum_cons, ih, List.length_cons, List.countP_cons]
      cases null <;> cases element.isNull item <;>
        simp [Slot.payload, Slot.excess, Int.mul_add, Int.add_mul] <;> omega

theorem length_flatten_dataFrames (map : OidMap) (element : Slot) (items : List element.Val) :
    ((items.map fun item => dataFrame (element.sizeOf item) (element.send map item)).flatten.length
        : Int) =
      (items.map fun item => (4 : Int) + (element.send map item).length).sum := by
  induction items with
  | nil => rfl
  | cons item items ih =>
      rw [List.map_cons, List.flatten_cons, List.length_append, length_dataFrame, List.map_cons,
        List.sum_cons, ← ih]
      omega

theorem Slot.arrayDataSize_static_iff (map : OidMap) {element : Slot}
    (static : element.staticSize = true) (items : List element.Val)
    {length : Nat}
    (written : (length : Int) = 20 + (items.map fun item =>
      (4 : Int) + (element.send map item).length).sum)
    (upper : (length : Int) < 2 ^ 31) :
    int32 (arrayHeaderSize + arrayDataSize element.staticSize
        (items.map fun item => dataFrameSizeOf (element.sizeOf item))) = length ↔
      2 ^ 32 ∣ element.width * element.unlikeFirst items := by
  have payloads : (items.map fun item => (4 : Int) + (element.send map item).length) =
      items.map fun item => 4 + element.payload (element.isNull item) := by
    apply List.map_congr_left
    intro item _
    rw [(element.static_element map static item).2]
  rw [payloads] at written
  rw [static]
  cases items with
  | nil =>
      simp only [List.map_nil, List.sum_nil] at written
      simp only [List.map_nil, arrayDataSize, arrayHeaderSize, if_true, written, Slot.unlikeFirst,
        Nat.mul_zero, Nat.dvd_zero, iff_true]
      rfl
  | cons first others =>
      have counted : (first :: others).countP
          (fun item => element.isNull item != element.isNull first) =
            element.unlikeFirst (first :: others) := by
        simp [Slot.unlikeFirst]
      rw [element.sum_payload (element.isNull first), counted] at written
      generalize element.unlikeFirst (first :: others) = unlike at *
      rw [← int32_eq_self (by omega) upper]
      simp only [arrayDataSize, arrayHeaderSize, List.map_cons, if_true, List.length_cons,
        List.length_map, int32_add_int32, int32_eq_int32_iff,
        (element.static_element map static first).1]
      have difference : 12 + 8 + (4 + element.payload (element.isNull first)) *
          ((others.length + 1 : Nat) : Int) - length =
            -element.excess (element.isNull first) unlike := by
        rw [written, List.length_cons]
        omega
      rw [difference, Int.dvd_neg, ← element.dvd_excess_iff (element.isNull first)]

/-! ## Agreement at one value -/

/-- The frame sizes of a value follow from its size while they are in range. -/
theorem Slot.frames_of_sizeExact (map : OidMap) (s : Slot) (v : s.Val)
    (exactly : s.SizeExact map v) (upper : (s.send map v).length + 8 < 2 ^ 31) :
    s.SizesAgree map v := by
  cases null : s.isNull v with
  | true => exact s.sizesAgree_of_isNull map v null
  | false => exact (s.sizesAgree_iff map v null).mpr ⟨exactly null, upper⟩

theorem Fields.dataSize_eq (map : OidMap) : (fields : Fields) → (v : fields.Val) →
    fields.Everywhere (Slot.SizeExact map) v → (fields.sendFrames map v).length < 2 ^ 31 →
      fields.dataSize v = int32 (fields.sendFrames map v).length
  | .nil, _, _, _ => by
      simp only [Fields.dataSize, Fields.sendFrames]
      rfl
  | .cons head tail, v, exactly, upper => by
      simp only [Fields.sendFrames, List.length_append, length_frame] at upper
      rcases exactly with ⟨first, others⟩
      have headExact := ((head.everywhere_iff v.1).mp first).1
      have headFrame := (head.frames_of_sizeExact map v.1 headExact (by omega)).frame
      have tailSize := tail.dataSize_eq map v.2 others (by omega)
      rw [Slot.frameSize] at headFrame
      simp only [Fields.dataSize, headFrame, tailSize, int32_add_int32, Fields.sendFrames,
        List.length_append, Slot.sendFrame, Int.natCast_add]

theorem dataFrameSizes_eq (map : OidMap) (element : Slot) (items : List element.Val)
    (exactly : ∀ item ∈ items, element.SizeExact map item)
    (upper : ∀ item ∈ items, (element.send map item).length + 8 < 2 ^ 31) :
    (items.map fun item => dataFrameSizeOf (element.sizeOf item)) =
      items.map fun item => (4 : Int) + (element.send map item).length := by
  apply List.map_congr_left
  intro item member
  have agree := element.frames_of_sizeExact map item (exactly item member) (upper item member)
  have size := agree.dataFrame
  rw [Slot.dataFrameSize, Slot.sendDataFrame, length_dataFrame] at size
  rw [size, Int.natCast_add]
  rfl

theorem length_send_item_le (map : OidMap) {element : Slot} {items : List element.Val}
    {item : element.Val} (member : item ∈ items) :
    4 + (element.send map item).length ≤
      (items.map fun item =>
        dataFrame (element.sizeOf item) (element.send map item)).flatten.length := by
  have sublist := List.sublist_flatten_of_mem (List.mem_map_of_mem (f := fun item =>
    dataFrame (element.sizeOf item) (element.send map item)) member)
  simpa using sublist.length_le

/-- When the sizes inside an object are right, its own size is right exactly
when its nulls are uniform. -/
theorem Ty.sizeOfImpl_iff (map : OidMap) (t : Ty) (v : t.Val)
    (inside : t.Inside (Slot.SizeExact map) v) (upper : (t.sendImpl map v).length < 2 ^ 31) :
    int32 (t.sizeOfImpl v) = (t.sendImpl map v).length ↔ t.NullsUniform v := by
  cases t with
  | scalar s =>
      have length := s.length_send v
      simp only [Ty.sizeOfImpl, Ty.sendImpl, Ty.NullsUniform, iff_true] at *
      rw [← length]
      exact int32_natCast upper
  | composite kind fields =>
      simp only [Ty.sendImpl, List.length_append, length_writeInt32] at upper
      simp only [Ty.sizeOfImpl, Ty.sendImpl, Ty.NullsUniform, iff_true, List.length_append,
        length_writeInt32, fields.dataSize_eq map v inside (by omega), int32_add_int32,
        Int.natCast_add]
      exact int32_eq_self (by omega) (by omega)
  | array bound element =>
      have header := length_sendArrayHeader (element.typeOid map) (Container.items v).length
      have written := length_flatten_dataFrames map element (Container.items v)
      simp only [Ty.sendImpl, List.length_append, header] at upper
      simp only [Ty.sizeOfImpl, Ty.sendImpl, Ty.NullsUniform, List.length_append, header]
      cases static : element.staticSize with
      | true =>
          rw [← static]
          exact element.arrayDataSize_static_iff map static (Container.items v)
            (by rw [Int.natCast_add, written]; rfl) (by exact_mod_cast upper)
      | false =>
          have frames := dataFrameSizes_eq map element (Container.items v)
            (fun item member => ((element.everywhere_iff item).mp (inside item member)).1)
            (fun item member => by
              have shorter := length_send_item_le map member
              omega)
          have sum := foldl_int32_add ((Container.items v).map fun item =>
            (4 : Int) + (element.send map item).length) 0
          rw [show int32 0 = 0 from rfl] at sum
          simp only [element.width_of_not_static static, frames, arrayDataSize, sum,
            arrayHeaderSize, int32_add_int32, Nat.zero_mul, Nat.dvd_zero, iff_true,
            Bool.false_eq_true, if_false, Int.zero_add, ← written, Int.natCast_add]
          exact int32_eq_self (by omega) (by omega)

theorem Slot.sizeExact_iff (map : OidMap) (s : Slot) (v : s.Val)
    (inside : s.Holds (Ty.Inside (Slot.SizeExact map)) v)
    (upper : (s.send map v).length < 2 ^ 31) :
    s.SizeExact map v ↔ s.Holds Ty.NullsUniform v := by
  cases s with
  | plain type =>
      have size := type.sizeOfImpl_iff map v inside
      simp only [Slot.SizeExact, Slot.Holds, Slot.isNull, Slot.sizeOf, Slot.send] at *
      simpa using size upper
  | nullable type =>
      cases v with
      | none => simp [Slot.SizeExact, Slot.Holds, Slot.isNull]
      | some v =>
          have size := type.sizeOfImpl_iff map v inside
          simp only [Slot.SizeExact, Slot.Holds, Slot.isNull, Slot.sizeOf, Slot.send] at *
          simpa using size upper
  | null => simp [Slot.SizeExact, Slot.Holds, Slot.isNull]

/-! ## Agreement at every nested value -/

section Congruence

variable {P Q : (s : Slot) → s.Val → Prop}

theorem Slot.holds_congr {P Q : (t : Ty) → t.Val → Prop} (s : Slot) (v : s.Val)
    (same : s.Holds (fun t v => P t v ↔ Q t v) v) : s.Holds P v ↔ s.Holds Q v := by
  cases s with
  | plain type => exact same
  | nullable type =>
      cases v with
      | none => exact Iff.rfl
      | some v => exact same
  | null => exact Iff.rfl

theorem Slot.everywhere_congr_of_inside (s : Slot) (v : s.Val)
    (self : s.Holds (Ty.Inside P) v → (P s v ↔ Q s v))
    (inside : s.Holds (fun t v => t.Inside P v ↔ t.Inside Q v) v) :
    s.Everywhere P v ↔ s.Everywhere Q v := by
  rw [Slot.everywhere_iff, Slot.everywhere_iff, ← s.holds_congr v inside]
  exact and_congr_left self

mutual

/-- Two properties that are equivalent at each value whose frame is in range,
given the first one inside it, are equivalent throughout an object that is in
range itself. -/
theorem Ty.inside_congr (map : OidMap)
    (step : ∀ (s : Slot) (v : s.Val), (s.send map v).length + 8 < 2 ^ 31 →
      s.Holds (Ty.Inside P) v → (P s v ↔ Q s v)) :
    (t : Ty) → (v : t.Val) → (t.sendImpl map v).length < 2 ^ 31 →
      (t.Inside P v ↔ t.Inside Q v)
  | .scalar _, _, _ => Iff.rfl
  | .array _ element, v, upper => by
      simp only [Ty.sendImpl, List.length_append, length_sendArrayHeader] at upper
      refine forall₂_congr fun item member => ?_
      have shorter := length_send_item_le map member
      exact element.everywhere_congr map step item (by omega)
  | .composite _ fields, v, upper => by
      simp only [Ty.sendImpl, List.length_append, length_writeInt32] at upper
      exact fields.everywhere_congr map step v (by omega)

theorem Slot.everywhere_congr (map : OidMap)
    (step : ∀ (s : Slot) (v : s.Val), (s.send map v).length + 8 < 2 ^ 31 →
      s.Holds (Ty.Inside P) v → (P s v ↔ Q s v)) :
    (s : Slot) → (v : s.Val) → (s.send map v).length + 8 < 2 ^ 31 →
      (s.Everywhere P v ↔ s.Everywhere Q v)
  | .plain type, v, upper =>
      Slot.everywhere_congr_of_inside (.plain type) v (step _ _ upper)
        (type.inside_congr map step v (by simp only [Slot.send] at upper; omega))
  | .nullable type, none, upper => step (.nullable type) none upper trivial
  | .nullable type, some v, upper =>
      Slot.everywhere_congr_of_inside (.nullable type) (some v) (step _ _ upper)
        (type.inside_congr map step v (by simp only [Slot.send] at upper; omega))
  | .null, v, upper => step .null v upper trivial

theorem Fields.everywhere_congr (map : OidMap)
    (step : ∀ (s : Slot) (v : s.Val), (s.send map v).length + 8 < 2 ^ 31 →
      s.Holds (Ty.Inside P) v → (P s v ↔ Q s v)) :
    (fields : Fields) → (v : fields.Val) → (fields.sendFrames map v).length < 2 ^ 31 →
      (fields.Everywhere P v ↔ fields.Everywhere Q v)
  | .nil, _, _ => Iff.rfl
  | .cons head tail, v, upper => by
      simp only [Fields.sendFrames, List.length_append, length_frame] at upper
      exact and_congr (head.everywhere_congr map step v.1 (by omega))
        (tail.everywhere_congr map step v.2 (by omega))

end

/-- The same for a value that is in range while its frame may not be. -/
theorem Slot.everywhere_congr_of_short (map : OidMap)
    (step : ∀ (s : Slot) (v : s.Val), (s.send map v).length + 8 < 2 ^ 31 →
      s.Holds (Ty.Inside P) v → (P s v ↔ Q s v))
    (s : Slot) (v : s.Val) (short : (s.send map v).length < 2 ^ 31)
    (self : s.Holds (Ty.Inside P) v → (P s v ↔ Q s v)) :
    s.Everywhere P v ↔ s.Everywhere Q v := by
  apply s.everywhere_congr_of_inside v self
  cases s with
  | plain type => exact type.inside_congr map step v (by simpa only [Slot.send] using short)
  | nullable type =>
      cases v with
      | none => trivial
      | some v => exact type.inside_congr map step v (by simpa only [Slot.send] using short)
  | null => trivial

end Congruence

theorem Slot.sizeExact_everywhere_iff (map : OidMap) (s : Slot) (v : s.Val)
    (short : (s.send map v).length < 2 ^ 31) :
    s.Everywhere (Slot.SizeExact map) v ↔ s.Everywhere (Slot.Holds Ty.NullsUniform) v :=
  Slot.everywhere_congr_of_short map
    (fun s v upper inside => s.sizeExact_iff map v inside (by omega)) s v short
    (fun inside => s.sizeExact_iff map v inside short)

theorem Slot.sizesAgree_iff_sizeExact (map : OidMap) (s : Slot) (v : s.Val)
    (room : s.isNull v = true ∨ (s.send map v).length + 8 < 2 ^ 31) :
    s.SizesAgree map v ↔ s.SizeExact map v := by
  constructor
  · exact Slot.SizesAgree.size
  · intro exactly
    rcases room with null | upper
    · exact s.sizesAgree_of_isNull map v null
    · exact s.frames_of_sizeExact map v exactly upper

/-- The computed sizes against the written bytes, for a value and everything
nested in it: `size_of` is right throughout exactly when nulls are uniform in
every array of static-size elements, and the frame sizes are right as well
exactly when moreover the frame of a non-null value is within `size_type`. -/
theorem sizes_agree_everywhere_iff (map : OidMap) (s : Slot) (v : s.Val)
    (short : (s.send map v).length < 2 ^ 31) :
    (s.Everywhere (Slot.SizeExact map) v ↔ s.Everywhere (Slot.Holds Ty.NullsUniform) v) ∧
      (s.Everywhere (Slot.SizesAgree map) v ↔
        s.Everywhere (Slot.Holds Ty.NullsUniform) v ∧
          (s.isNull v = true ∨ (s.send map v).length + 8 < 2 ^ 31)) := by
  have sizes := s.sizeExact_everywhere_iff map v short
  constructor
  · exact sizes
  · by_cases room : s.isNull v = true ∨ (s.send map v).length + 8 < 2 ^ 31
    · have frames : s.Everywhere (Slot.SizesAgree map) v ↔ s.Everywhere (Slot.SizeExact map) v :=
        Slot.everywhere_congr_of_short map
          (fun s v upper _ => s.sizesAgree_iff_sizeExact map v (.inr upper)) s v short
          (fun _ => s.sizesAgree_iff_sizeExact map v room)
      rw [frames, sizes]
      exact (and_iff_left room).symm
    · constructor
      · intro agree
        have nonNull : s.isNull v = false := by
          cases null : s.isNull v with
          | true => exact absurd (.inl null) room
          | false => rfl
        have self := ((s.everywhere_iff v).mp agree).1
        exact absurd (.inr ((s.sizesAgree_iff map v nonNull).mp self).2) room
      · intro conditions
        exact absurd conditions.2 room

/-- The slot of an array of optional 32-bit integers. -/
def optionalInts : Slot :=
  .plain (.array none (.nullable (.scalar .int4)))

/-- The array `{NULL, 5}`. -/
def mixedNulls : optionalInts.Val :=
  (⟨[none, some (5 : Word 4)], by simp⟩ : Container none (Option (Word 4)))

/-- For an array that starts with a null and goes on with a value, two null
frames are counted: 28 bytes, of 32 that are written. -/
theorem sizeOf_mixedNulls :
    optionalInts.isNull mixedNulls = false ∧
      (optionalInts.send (fun _ => 0) mixedNulls).length = 32 ∧
      optionalInts.sizeOf mixedNulls = 28 ∧
      ¬ optionalInts.SizeExact (fun _ => 0) mixedNulls := by
  have length : (optionalInts.send (fun _ => 0) mixedNulls).length = 32 := by decide
  have size : optionalInts.sizeOf mixedNulls = 28 := by decide
  refine ⟨rfl, length, size, fun exactly => ?_⟩
  have equal := exactly rfl
  rw [length, size] at equal
  exact absurd equal (by decide)

theorem sizes_agree_everywhere_mixedNulls :
    ¬ optionalInts.Everywhere (Slot.SizeExact fun _ => 0) mixedNulls := by
  intro exactly
  have uniform := (sizes_agree_everywhere_iff _ _ _ (by decide)).1.mp exactly
  exact absurd (show 2 ^ 32 ∣ 4 * 1 from uniform.1) (by decide)

end Bozo.Io
