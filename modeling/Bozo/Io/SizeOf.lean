import Bozo.Io.Types

/-!
# Encoded sizes

`size_of` is computed apart from the writer, in `size_type`, a signed 32-bit
integer.  Sums of unsigned operands are converted back to it modulo `2 ^ 32`;
the sums of two signed sizes, over array elements and composite members, are
given the same wrapping value where the language leaves them undefined.
-/

namespace Bozo.Io

open Bozo.Bytes

/-- `null_state_size`. -/
def nullStateSize : Int := -1

/-- `data_frame_size` of an object by its `size_of`. -/
def dataFrameSizeOf (size : Int) : Int :=
  int32 (4 + max size 0)

/-- `frame_size` of an object by its `size_of`. -/
def frameSizeOf (size : Int) : Int :=
  int32 (4 + dataFrameSizeOf size)

/-- `size_of_impl` of a scalar: the size of its traits, or what the object
holds; `jsonb` and `ltree` have a version byte in front. -/
def Scalar.sizeOf : (s : Scalar) → s.Val → Int
  | .bool, _ | .char, _ => 1
  | .int2, _ => 2
  | .int4, _ | .oid, _ | .float4, _ => 4
  | .int8, _ | .float8, _ | .timestamp, _ => 8
  | .uuid, _ | .interval, _ => 16
  | .text, v | .bytea, v | .name, v | .json, v => (show List UInt8 from v).length
  | .jsonb, v | .ltree, v => (show List UInt8 from v).length + 1

/-- `size_of_array_impl::data_size` by the data frame sizes of the elements.
For elements of static size only the first of them is looked at. -/
def arrayDataSize (static : Bool) (frames : List Int) : Int :=
  if static then
    match frames with
    | [] => 0
    | first :: _ => int32 (first * frames.length)
  else
    frames.foldl (fun size frame => int32 (size + frame)) 0

/-- The array header and the dimension header. -/
def arrayHeaderSize : Int := 12 + 8

mutual

/-- What the `size_of` implementation of a type returns for an object. -/
def Ty.sizeOfImpl : (t : Ty) → t.Val → Int
  | .scalar s, v => s.sizeOf v
  | .array _ element, v =>
      arrayHeaderSize + arrayDataSize element.staticSize
        ((Container.items v).map fun item => dataFrameSizeOf (element.sizeOf item))
  | .composite _ fields, v => 4 + fields.dataSize v

/-- `size_of`. -/
def Slot.sizeOf : (s : Slot) → s.Val → Int
  | .plain type, v => int32 (type.sizeOfImpl v)
  | .nullable _, none => nullStateSize
  | .nullable type, some v => int32 (type.sizeOfImpl v)
  | .null, _ => nullStateSize

/-- `data_size` of a composite's members. -/
def Fields.dataSize : (fields : Fields) → fields.Val → Int
  | .nil, _ => 0
  | .cons head tail, v => int32 (frameSizeOf (head.sizeOf v.1) + tail.dataSize v.2)

end

/-- `data_frame_size`. -/
def Slot.dataFrameSize (s : Slot) (v : s.Val) : Int :=
  dataFrameSizeOf (s.sizeOf v)

/-- `frame_size`. -/
def Slot.frameSize (s : Slot) (v : s.Val) : Int :=
  frameSizeOf (s.sizeOf v)

end Bozo.Io
