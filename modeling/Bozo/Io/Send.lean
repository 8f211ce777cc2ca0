import Bozo.Io.Chrono
import Bozo.Io.SizeOf

/-!
# Sending

What `send` appends to an output stream.  Every word is written in network
order; a frame announces the oid of its payload and the size that `size_of`
computes for it, whatever the payload turns out to be.
-/

namespace Bozo.Io

open Bozo.Bytes
open Bozo.Bytes.Reader

/-- `write` of a `size_type` or another signed 32-bit integer. -/
def writeInt32 (x : Int) : List UInt8 :=
  writeWord (BitVec.ofInt (8 * 4) x : Word 4)

/-- `write` of a signed 64-bit integer. -/
def writeInt64 (x : Int) : List UInt8 :=
  writeWord (BitVec.ofInt (8 * 8) x : Word 8)

@[simp]
theorem length_writeInt32 (x : Int) : (writeInt32 x).length = 4 :=
  length_writeWord _

@[simp]
theorem length_writeInt64 (x : Int) : (writeInt64 x).length = 8 :=
  length_writeWord _

/-- `write` of the structure `pg_interval`. -/
def writeInterval (interval : PgInterval) : List UInt8 :=
  writeInt64 interval.microseconds ++ writeInt32 interval.days ++ writeInt32 interval.months

/-- `send_impl` of a scalar. -/
def Scalar.send : (s : Scalar) → s.Val → List UInt8
  | .bool, true => [1]
  | .bool, false => [0]
  | .char, v => [v]
  | .int2, v => writeWord (n := 2) v
  | .int4, v | .oid, v | .float4, v => writeWord (n := 4) v
  | .int8, v | .float8, v => writeWord (n := 8) v
  | .uuid, v => v.1
  | .interval, v => writeInterval (fromChronoDuration (BitVec.toInt v))
  | .timestamp, v => writeInt64 (timestampToWire (BitVec.toInt v)).value
  | .text, v | .bytea, v | .name, v | .json, v => v
  | .jsonb, v | .ltree, v => 1 :: v

/-- The headers `pg_array` and `pg_array_dimension` of an array that is sent. -/
def sendArrayHeader (elementOid : Oid) (count : Nat) : List UInt8 :=
  writeInt32 1 ++ writeInt32 0 ++ writeWord elementOid ++ writeInt32 (int32 count) ++ writeInt32 0

/-- A data frame: the announced size and the payload. -/
def dataFrame (size : Int) (payload : List UInt8) : List UInt8 :=
  writeInt32 size ++ payload

/-- A full frame: the announced oid and a data frame. -/
def frame (oid : Oid) (size : Int) (payload : List UInt8) : List UInt8 :=
  writeWord oid ++ dataFrame size payload

mutual

/-- What the `send` implementation of a type appends for an object. -/
def Ty.sendImpl (map : OidMap) : (t : Ty) → t.Val → List UInt8
  | .scalar s, v => s.send v
  | .array _ element, v =>
      sendArrayHeader (element.typeOid map) (Container.items v).length ++
        ((Container.items v).map fun item =>
          dataFrame (element.sizeOf item) (element.send map item)).flatten
  | .composite _ fields, v => writeInt32 fields.fieldsNumber ++ fields.sendFrames map v

/-- `send`. -/
def Slot.send (map : OidMap) : (s : Slot) → s.Val → List UInt8
  | .plain type, v => type.sendImpl map v
  | .nullable _, none => []
  | .nullable type, some v => type.sendImpl map v
  | .null, _ => []

/-- The frames of a composite's members. -/
def Fields.sendFrames (map : OidMap) : (fields : Fields) → fields.Val → List UInt8
  | .nil, _ => []
  | .cons head tail, v =>
      frame (head.typeOid map) (head.sizeOf v.1) (head.send map v.1) ++
        tail.sendFrames map v.2

end

/-- `send_data_frame`. -/
def Slot.sendDataFrame (map : OidMap) (s : Slot) (v : s.Val) : List UInt8 :=
  dataFrame (s.sizeOf v) (s.send map v)

/-- `send_frame`. -/
def Slot.sendFrame (map : OidMap) (s : Slot) (v : s.Val) : List UInt8 :=
  frame (s.typeOid map) (s.sizeOf v) (s.send map v)

@[simp]
theorem length_dataFrame (size : Int) (payload : List UInt8) :
    (dataFrame size payload).length = 4 + payload.length := by
  simp [dataFrame]

@[simp]
theorem length_frame (oid : Oid) (size : Int) (payload : List UInt8) :
    (frame oid size payload).length = 8 + payload.length := by
  simp only [frame, List.length_append, length_writeWord, length_dataFrame]
  omega

@[simp]
theorem length_sendArrayHeader (elementOid : Oid) (count : Nat) :
    (sendArrayHeader elementOid count).length = 20 := by
  simp [sendArrayHeader]

end Bozo.Io
