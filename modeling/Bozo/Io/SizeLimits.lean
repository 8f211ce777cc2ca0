import Bozo.Io.SizeAgreement
import Mathlib.Algebra.BigOperators.Ring.Finset
import Mathlib.Algebra.Order.BigOperators.Group.List
import Mathlib.Algebra.Order.Group.Nat

/-!
# Sizes that do not fit

`size_of` and the frame sizes are computed in a signed 32-bit type and none of
them reports an error.  Here they are compared with the same sums and products
over the natural numbers.
-/

namespace Bozo.Io

open Bozo.Bytes

/-! ## Sizes without a limit -/

/-- `arrayDataSize` without a limit. -/
def exactArrayDataSize (static : Bool) (frames : List Nat) : Nat :=
  if static then
    match frames with
    | [] => 0
    | first :: _ => first * frames.length
  else
    frames.sum

mutual

/-- `Ty.sizeOfImpl` without a limit. -/
def Ty.exactSizeImpl : (t : Ty) → t.Val → Nat
  | .scalar s, v => (s.sizeOf v).toNat
  | .array _ element, v =>
      20 + exactArrayDataSize element.staticSize
        ((Container.items v).map fun item => 4 + element.exactSize item)
  | .composite _ fields, v => 4 + fields.exactDataSize v

/-- `Slot.sizeOf` without a limit; nothing is sent for a null value. -/
def Slot.exactSize : (s : Slot) → s.Val → Nat
  | .plain type, v => type.exactSizeImpl v
  | .nullable _, none => 0
  | .nullable type, some v => type.exactSizeImpl v
  | .null, _ => 0

/-- `Fields.dataSize` without a limit. -/
def Fields.exactDataSize : (fields : Fields) → fields.Val → Nat
  | .nil, _ => 0
  | .cons head tail, v => 8 + head.exactSize v.1 + tail.exactDataSize v.2

end

/-- The computed sizes of a non-null value are its sizes, and the one that stands
for null is not among them. -/
structure Slot.SizesExact (s : Slot) (v : s.Val) : Prop where
  nonneg : 0 ≤ s.sizeOf v
  notNull : s.sizeOf v ≠ nullStateSize
  size : s.sizeOf v = s.exactSize v
  dataFrame : s.dataFrameSize v = 4 + s.exactSize v
  frame : s.frameSize v = 8 + s.exactSize v

/-! ## Frames and arrays -/

theorem dataFrameSizeOf_of_max {size : Int} {n : Nat} (same : max size 0 = n)
    (upper : 4 + n < 2 ^ 31) : dataFrameSizeOf size = 4 + n := by
  rw [dataFrameSizeOf, same]
  exact int32_natCast upper

theorem frameSizeOf_of_max {size : Int} {n : Nat} (same : max size 0 = n)
    (upper : 8 + n < 2 ^ 31) : frameSizeOf size = 8 + n := by
  have dataFrame := dataFrameSizeOf_of_max same (by omega)
  rw [frameSizeOf, dataFrame, ← Int.add_assoc]
  exact int32_natCast upper

section Array

variable {α : Type} (items : List α) (frame : α → Int) (exactFrame : α → Nat)

/-- The computed size of the elements is exact if it is in range and the frames in
range are. -/
theorem arrayDataSize_eq (static : Bool)
    (exactly : ∀ item ∈ items, exactFrame item < 2 ^ 31 → frame item = exactFrame item)
    (upper : exactArrayDataSize static (items.map exactFrame) < 2 ^ 31) :
    arrayDataSize static (items.map frame) =
      exactArrayDataSize static (items.map exactFrame) := by
  cases static with
  | true =>
      cases items with
      | nil => rfl
      | cons first items =>
          have counted : exactFrame first * (items.length + 1) < 2 ^ 31 := by
            simpa [exactArrayDataSize] using upper
          have small : exactFrame first < 2 ^ 31 :=
            lt_of_le_of_lt (Nat.le_mul_of_pos_right _ (Nat.succ_pos _)) counted
          simp only [arrayDataSize, exactArrayDataSize, List.map_cons, if_true, List.length_cons,
            List.length_map, exactly first List.mem_cons_self small, ← Int.natCast_mul]
          exact int32_natCast counted
  | false =>
      change (items.map exactFrame).sum < 2 ^ 31 at upper
      have frames : items.map frame = items.map fun item => (exactFrame item : Int) := by
        apply List.map_congr_left
        intro item member
        apply exactly item member
        exact lt_of_le_of_lt (List.le_sum_of_mem (List.mem_map_of_mem member)) upper
      have total : (items.map fun item => (exactFrame item : Int)).sum =
          ((items.map exactFrame).sum : Nat) := by
        rw [Nat.cast_list_sum, List.map_map]
        rfl
      change (items.map frame).foldl (fun size frame => int32 (size + frame)) (int32 0) = _
      rw [foldl_int32_add, frames, total, Int.zero_add]
      exact int32_natCast upper

end Array

/-! ## Values -/

theorem Scalar.sizeOf_nonneg (s : Scalar) (v : s.Val) : 0 ≤ s.sizeOf v := by
  rw [← s.length_send v]
  exact Int.natCast_nonneg _

theorem Slot.exactSize_of_isNull (s : Slot) (v : s.Val) (null : s.isNull v = true) :
    s.exactSize v = 0 := by
  cases s with
  | plain type => cases null
  | nullable type =>
      cases v with
      | none => simp only [Slot.exactSize]
      | some v => cases null
  | null => simp only [Slot.exactSize]

/-- A null value counts for nothing in the frame around it. -/
theorem Slot.max_sizeOf_eq (s : Slot) (v : s.Val)
    (same : s.isNull v = false → s.sizeOf v = s.exactSize v) :
    max (s.sizeOf v) 0 = s.exactSize v := by
  cases null : s.isNull v with
  | true =>
      rw [s.sizeOf_of_isNull v null, s.exactSize_of_isNull v null]
      rfl
  | false =>
      rw [same null]
      exact max_eq_left (Int.natCast_nonneg _)

mutual

theorem Ty.sizeOfImpl_eq : (t : Ty) → (v : t.Val) → t.exactSizeImpl v < 2 ^ 31 →
    t.sizeOfImpl v = t.exactSizeImpl v
  | .scalar s, v, _ => by
      simp only [Ty.sizeOfImpl, Ty.exactSizeImpl]
      exact (Int.toNat_of_nonneg (s.sizeOf_nonneg v)).symm
  | .array _ element, v, upper => by
      simp only [Ty.exactSizeImpl] at upper
      have frames : ∀ item ∈ Container.items v, 4 + element.exactSize item < 2 ^ 31 →
          dataFrameSizeOf (element.sizeOf item) = (4 + element.exactSize item : Nat) := by
        intro item _ small
        have size := element.max_sizeOf_eq item fun nonNull =>
          Slot.sizeOf_eq_exactSize element item nonNull (by omega)
        exact dataFrameSizeOf_of_max size small
      have elements := arrayDataSize_eq (Container.items v)
        (fun item => dataFrameSizeOf (element.sizeOf item))
        (fun item => 4 + element.exactSize item) element.staticSize frames (by omega)
      simp only [Ty.sizeOfImpl, Ty.exactSizeImpl, elements, arrayHeaderSize]
      omega
  | .composite _ fields, v, upper => by
      simp only [Ty.exactSizeImpl] at upper
      simp only [Ty.sizeOfImpl, Ty.exactSizeImpl,
        Fields.dataSize_eq_exactDataSize fields v (by omega)]
      omega

theorem Slot.sizeOf_eq_exactSize : (s : Slot) → (v : s.Val) → s.isNull v = false →
    s.exactSize v < 2 ^ 31 → s.sizeOf v = s.exactSize v
  | .plain type, v, _, upper => by
      simp only [Slot.exactSize] at upper
      simp only [Slot.sizeOf, Slot.exactSize, Ty.sizeOfImpl_eq type v upper]
      exact int32_natCast upper
  | .nullable type, some v, _, upper => by
      simp only [Slot.exactSize] at upper
      simp only [Slot.sizeOf, Slot.exactSize, Ty.sizeOfImpl_eq type v upper]
      exact int32_natCast upper

theorem Fields.dataSize_eq_exactDataSize : (fields : Fields) → (v : fields.Val) →
    fields.exactDataSize v < 2 ^ 31 → fields.dataSize v = fields.exactDataSize v
  | .nil, _, _ => by
      simp only [Fields.dataSize, Fields.exactDataSize]
      rfl
  | .cons head tail, v, upper => by
      simp only [Fields.exactDataSize] at upper
      have size := head.max_sizeOf_eq v.1 fun nonNull =>
        Slot.sizeOf_eq_exactSize head v.1 nonNull (by omega)
      have first := frameSizeOf_of_max size (by omega)
      simp only [Fields.dataSize, Fields.exactDataSize, first,
        Fields.dataSize_eq_exactDataSize tail v.2 (by omega)]
      exact int32_natCast upper

end

/-! ## What the sizes without a limit count -/

/-- The elements of an array of static-size elements are all null or none is. -/
def Ty.NullsAlike : (t : Ty) → t.Val → Prop
  | .scalar _, _ | .composite _ _, _ => True
  | .array _ element, v =>
      element.staticSize = true →
        ∀ item ∈ Container.items v, ∀ other ∈ Container.items v,
          element.isNull item = element.isNull other

/-- Elements of static size in one null state are sent with the same number of
bytes. -/
theorem exactArrayDataSize_of_alike (map : OidMap) (element : Slot) (items : List element.Val)
    (alike : element.staticSize = true →
      ∀ item ∈ items, ∀ other ∈ items, element.isNull item = element.isNull other) :
    exactArrayDataSize element.staticSize
        (items.map fun item => 4 + (element.send map item).length) =
      (items.map fun item => 4 + (element.send map item).length).sum := by
  cases static : element.staticSize with
  | false => rfl
  | true =>
      cases items with
      | nil => rfl
      | cons first items =>
          have equal : ∀ item ∈ first :: items,
              4 + (element.send map item).length = 4 + (element.send map first).length := by
            intro item member
            have here := (element.static_element map static item).2
            have there := (element.static_element map static first).2
            rw [alike static item member first List.mem_cons_self] at here
            omega
          rw [List.map_congr_left equal, List.map_const', List.sum_replicate_nat,
            List.length_cons, List.replicate_succ]
          simp only [exactArrayDataSize, if_true, List.length_cons, List.length_replicate,
            Nat.mul_comm]

theorem length_flatten_frames (map : OidMap) (element : Slot) (items : List element.Val) :
    (items.map fun item =>
        dataFrame (element.sizeOf item) (element.send map item)).flatten.length =
      (items.map fun item => 4 + (element.send map item).length).sum := by
  rw [List.length_flatten, List.map_map]
  congr 1
  apply List.map_congr_left
  intro item _
  exact length_dataFrame _ _

mutual

theorem Ty.length_sendImpl (map : OidMap) : (t : Ty) → (v : t.Val) → t.NullsAlike v →
    t.Inside (fun s v => s.Holds Ty.NullsAlike v) v →
      (t.sendImpl map v).length = t.exactSizeImpl v
  | .scalar s, v, _, _ => by
      simp only [Ty.sendImpl, Ty.exactSizeImpl, ← s.length_send v, Int.toNat_natCast]
  | .array _ element, v, alike, inside => by
      have sent : ((Container.items v).map fun item => 4 + element.exactSize item) =
          (Container.items v).map fun item => 4 + (element.send map item).length := by
        apply List.map_congr_left
        intro item member
        rw [Slot.length_send map element item (inside item member)]
      simp only [Ty.sendImpl, Ty.exactSizeImpl, List.length_append, length_sendArrayHeader, sent,
        exactArrayDataSize_of_alike map element _ alike, length_flatten_frames]
  | .composite _ fields, v, _, inside => by
      simp only [Ty.sendImpl, Ty.exactSizeImpl, List.length_append, length_writeInt32,
        Fields.length_sendFrames map fields v inside]

/-- Where nulls are alike in every array, the size without a limit is the number of
bytes that are sent. -/
theorem Slot.length_send (map : OidMap) : (s : Slot) → (v : s.Val) →
    s.Everywhere (fun s v => s.Holds Ty.NullsAlike v) v → (s.send map v).length = s.exactSize v
  | .plain type, v, ⟨alike, inside⟩ => by
      simp only [Slot.send, Slot.exactSize]
      exact Ty.length_sendImpl map type v alike inside
  | .nullable _, none, _ => by
      simp only [Slot.send, Slot.exactSize]
      rfl
  | .nullable type, some v, ⟨alike, inside⟩ => by
      simp only [Slot.send, Slot.exactSize]
      exact Ty.length_sendImpl map type v alike inside
  | .null, _, _ => by
      simp only [Slot.send, Slot.exactSize]
      rfl

theorem Fields.length_sendFrames (map : OidMap) : (fields : Fields) → (v : fields.Val) →
    fields.Everywhere (fun s v => s.Holds Ty.NullsAlike v) v →
      (fields.sendFrames map v).length = fields.exactDataSize v
  | .nil, _, _ => by
      simp only [Fields.sendFrames, Fields.exactDataSize]
      rfl
  | .cons head tail, v, ⟨first, others⟩ => by
      simp only [Fields.sendFrames, Fields.exactDataSize, List.length_append, length_frame,
        Slot.length_send map head v.1 first, Fields.length_sendFrames map tail v.2 others]

end

/-! ## When sizes are exact -/

/-- The sizes of a non-null value are exact, and it is not taken for null, exactly
when its whole frame is within the range of `size_type`. -/
theorem sizes_exact_iff (s : Slot) (v : s.Val) (nonNull : s.isNull v = false) :
    s.SizesExact v ↔ s.exactSize v + 8 < 2 ^ 31 := by
  constructor
  · intro exactly
    have frame := exactly.frame
    have upper := int32_upper (4 + dataFrameSizeOf (s.sizeOf v))
    rw [Slot.frameSize, frameSizeOf] at frame
    omega
  · intro upper
    have size := s.sizeOf_eq_exactSize v nonNull (by omega)
    have same := s.max_sizeOf_eq v fun _ => size
    have small : 4 + s.exactSize v < 2 ^ 31 := by omega
    have nonneg : 0 ≤ s.sizeOf v := by
      rw [size]
      exact Int.natCast_nonneg _
    constructor
    · exact nonneg
    · intro null
      rw [null] at nonneg
      exact absurd nonneg (by decide)
    · exact size
    · exact dataFrameSizeOf_of_max same small
    · exact frameSizeOf_of_max same (by omega)

/-- A text of two characters. -/
theorem sizes_exact_shortText :
    Slot.isNull (.plain (.scalar .text)) ([104, 105] : List UInt8) = false ∧
      Slot.SizesExact (.plain (.scalar .text)) ([104, 105] : List UInt8) := by
  have nonNull : Slot.isNull (.plain (.scalar .text)) ([104, 105] : List UInt8) = false := rfl
  exact ⟨nonNull, (sizes_exact_iff _ _ nonNull).mpr (by decide)⟩

/-- A text with `2 ^ 32 - 1` characters. -/
def hugeText : List UInt8 :=
  List.replicate (2 ^ 32 - 1) 0

/-- The size of such a text is the one that stands for null. -/
theorem sizeOf_hugeText :
    Slot.isNull (.plain (.scalar .text)) hugeText = false ∧
      Slot.sizeOf (.plain (.scalar .text)) hugeText = nullStateSize ∧
      ¬∀ (s : Slot) (v : s.Val), s.isNull v = false → s.SizesExact v := by
  have length : hugeText.length = 2 ^ 32 - 1 := List.length_replicate
  have null : Slot.sizeOf (.plain (.scalar .text)) hugeText = nullStateSize := by
    simp only [Slot.sizeOf, Ty.sizeOfImpl, Scalar.sizeOf]
    rw [length]
    rfl
  constructor
  · rfl
  constructor
  · exact null
  · intro exactly
    exact (exactly (.plain (.scalar .text)) hugeText rfl).notNull null

end Bozo.Io
