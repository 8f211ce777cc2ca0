import Bozo.Error
import Bozo.Io.Send

/-!
# Receiving

The receive functions read into an existing object and return what it holds
afterwards.  A declared size is handed down to every implementation; the ones
for arrays, composites, `uuid`, `interval` and `timestamp` take it without a
name and do not look at it.  An output is its value here, which is all there is to
it as long as no two nullables in it point to the same object.
-/

namespace Bozo.Io

open Bozo.Bytes
open Bozo.Bytes.Reader

/-- The exceptions of the receive functions. -/
inductive RecvError
  | unexpectedEof
  | badObjectSize (size typeSize : Int)
  | badArrayDimension (count : Int)
  | badArraySize (received : Int) (size : Nat)
  | badCompositeSize (count fieldsNumber : Int) (type : Ty)
  | elementOidMismatch (oid : Oid) (element : Slot)
  | oidTypeMismatch (oid : Oid) (type : Ty)
  | unexpectedNull (type : Ty)
  | tooSmall (size : Int) (type : Scalar)
  | lengthError
  | notWritable

/-- The text of an exception, with the names that the compiler gives to types.
The text of `length_error` is the library's own, and a type that is not writable
does not compile. -/
def RecvError.what (demangle : Ty → String) : RecvError → String
  | .lengthError | .notWritable | .elementOidMismatch _ .null => ""
  | .unexpectedEof => Error.unexpectedEof.what ""
  | .badObjectSize size typeSize => Error.badObjectSize.what <|
      "data size " ++ toString size ++ " does not match type size " ++ toString typeSize
  | .badArrayDimension count => Error.badArrayDimension.what <|
      "multiply dimension count is not supported: " ++ toString count
  | .badArraySize received size => Error.badArraySize.what <|
      "received size " ++ toString received ++ " does not match array size " ++ toString size
  | .badCompositeSize count fieldsNumber type => Error.badCompositeSize.what <|
      "incoming composite fields count " ++ toString count ++ " does not match fields count " ++
        toString fieldsNumber ++ " of type " ++ demangle type
  | .elementOidMismatch oid (.plain type) | .elementOidMismatch oid (.nullable type) =>
      Error.oidTypeMismatch.what <|
        "unexpected oid " ++ toString oid.toNat ++ " for element type of " ++ demangle type
  | .oidTypeMismatch oid type => Error.oidTypeMismatch.what <|
      "unexpected oid " ++ toString oid.toNat ++ " for type " ++ demangle type
  | .unexpectedNull type => "unexpected null for type " ++ demangle type
  | .tooSmall size .ltree => "data size " ++ toString size ++ " is too small to read ltree"
  | .tooSmall size _ => "data size " ++ toString size ++ " is too small to read jsonb"

/-! ## Reading from the stream -/

/-- `read` of a one-byte integer. -/
def readByte : Reader RecvError UInt8
  | [] => .error .unexpectedEof
  | b :: bytes => .ok (b, bytes)

/-- `read` of an integer of `n` bytes. -/
def readWord (n : Nat) : Reader RecvError (Word n) :=
  word .unexpectedEof n

/-- `read` of a `size_type` or another signed 32-bit integer. -/
def readInt32 : Reader RecvError Int := do
  let x ← readWord 4
  pure x.toInt

/-- `read` of a signed 64-bit integer. -/
def readInt64 : Reader RecvError Int := do
  let x ← readWord 8
  pure x.toInt

/-- `read` into a buffer of `n` bytes. -/
def readBytes (n : Nat) : Reader RecvError { bytes : List UInt8 // bytes.length = n } :=
  fun bytes =>
    if enough : n ≤ bytes.length then
      .ok (⟨bytes.take n, List.length_take_of_le enough⟩, bytes.drop n)
    else
      .error .unexpectedEof

/-- `read` of the structure `pg_interval`. -/
def readInterval : Reader RecvError PgInterval := do
  let microseconds ← readInt64
  let days ← readInt32
  let months ← readInt32
  pure ⟨microseconds, days, months⟩

/-! ## Scalars -/

/-- The check of `recv_impl` for types of static size. -/
def requireSize (typeSize size : Int) : Reader RecvError Unit :=
  require (size = typeSize) (.badObjectSize size typeSize)

/-- `recv_impl` of an integer or floating point type of `n` bytes. -/
def recvWord (n : Nat) (size : Int) : Reader RecvError (Word n) := do
  requireSize n size
  readWord n

/-- Resize a string to a declared size, converted to an unsigned type, and fill
it. -/
def recvString (size : Int) : Reader RecvError (List UInt8) := do
  require (0 ≤ size) .lengthError
  let bytes ← readBytes size.toNat
  pure bytes.1

/-- A string behind a version byte that is not looked at. -/
def recvVersioned (type : Scalar) (size : Int) : Reader RecvError (List UInt8) := do
  require (1 ≤ size) (.tooSmall size type)
  let _version ← readByte
  recvString (size - 1)

/-- `recv_impl` of `std::chrono::microseconds`. -/
def recvInterval : Reader RecvError (Word 8) := do
  let interval ← readInterval
  pure (BitVec.ofInt (8 * 8) (toChronoDuration interval).value)

/-- `recv_impl` of `std::chrono::system_clock::time_point`. -/
def recvTimestamp : Reader RecvError (Word 8) := do
  let value ← readInt64
  pure (BitVec.ofInt (8 * 8) (timestampOfWire value).value)

/-- `recv_impl` of a scalar. -/
def Scalar.recv : (s : Scalar) → Int → Reader RecvError s.Val
  | .bool, size => do
      requireSize 1 size
      let b ← readByte
      pure (b != 0)
  | .char, size => do
      requireSize 1 size
      readByte
  | .int2, size => recvWord 2 size
  | .int4, size | .oid, size | .float4, size => recvWord 4 size
  | .int8, size | .float8, size => recvWord 8 size
  | .uuid, _ => readBytes 16
  | .interval, _ => recvInterval
  | .timestamp, _ => recvTimestamp
  | .text, size | .bytea, size | .name, size | .json, size => recvString size
  | .jsonb, size => recvVersioned .jsonb size
  | .ltree, size => recvVersioned .ltree size

/-! ## Arrays and composites -/

/-- The part of `recv_array_impl` before the elements: their number, or nothing
when there are no elements to receive. -/
def recvArrayHeader (map : OidMap) (element : Slot) : Reader RecvError (Option Int) := do
  let dimensionsCount ← readInt32
  let _dataoffset ← readInt32
  let elemtype ← readWord 4
  require (dimensionsCount ≤ 1) (.badArrayDimension dimensionsCount)
  require (element.typeOid map = elemtype) (.elementOidMismatch elemtype element)
  if dimensionsCount < 1 then
    return none
  let size ← readInt32
  let _index ← readInt32
  if size = 0 then
    return none
  return some size

/-- `std::vector::resize`: keep a front part, or append fresh elements. -/
def resize {α : Type} (fresh : α) (items : List α) (count : Nat) : List α :=
  items.take count ++ List.replicate (count - items.length) fresh

/-- `fit_array_size`. -/
def fitArraySize {α : Type} (fresh : α) (count : Int) :
    (bound : Option Nat) → Container bound α → Reader RecvError (Container bound α)
  | none, out => do
      require (0 ≤ count) .lengthError
      pure ⟨resize fresh out.items count.toNat, by simp⟩
  | some n, out => do
      require (count = int32 n) (.badArraySize count n)
      pure out

/-- The same container with other elements. -/
def Container.refill {bound : Option Nat} {α : Type} (out : Container bound α)
    (results : { results : List α // results.length = out.items.length }) :
    Container bound α where
  items := results.1
  length_eq n fixed := by rw [results.2, out.length_eq n fixed]

/-- The part of `recv_array_impl` behind the headers. -/
def recvElements {α : Type} {bound : Option Nat} (fresh : α) (receive : α → Reader RecvError α)
    (out : Container bound α) : Option Int → Reader RecvError (Container bound α)
  | none => pure out
  | some count => do
      let fitted ← fitArraySize fresh count bound out
      let results ← forEach receive fitted.items
      pure (fitted.refill results)

/-- `read_and_verify_header`. -/
def readAndVerifyHeader (fieldsNumber : Int) (type : Ty) : Reader RecvError Unit := do
  let count ← readInt32
  require (count = fieldsNumber) (.badCompositeSize count fieldsNumber type)

/-- `accepts_oid` for an oid that came with the frame, if there is one. -/
def checkOid (map : OidMap) (type : Ty) : Option Oid → Reader RecvError Unit
  | none => pure ()
  | some oid => require (type.typeOid map = oid) (.oidTypeMismatch oid type)

/-- `detail::recv` into an object that is not nullable. -/
def recvPlain {α : Type} (map : OidMap) (type : Ty) (oid : Option Oid) (size : Int)
    (receive : Reader RecvError α) : Reader RecvError α := do
  checkOid map type oid
  require (size ≠ nullStateSize) (.unexpectedNull type)
  receive

/-- `detail::recv` into a nullable. -/
def recvNullable {α : Type} (map : OidMap) (type : Ty) (oid : Option Oid) (size : Int)
    (receive : Reader RecvError α) : Reader RecvError (Option α) :=
  if size = nullStateSize then
    pure none
  else do
    checkOid map type oid
    let value ← receive
    pure (some value)

/-- `detail::recv_data_frame`: read the size and receive. -/
def recvSized {α : Type} (receive : Int → Reader RecvError α) : Reader RecvError α := do
  let size ← readInt32
  receive size

/-- `recv_frame`: read the oid and the size and receive. -/
def recvTyped {α : Type} (receive : Option Oid → Int → Reader RecvError α) :
    Reader RecvError α := do
  let oid ← readWord 4
  recvSized (receive (some oid))

mutual

/-- The receive implementation of a type. -/
def Ty.recvImpl (map : OidMap) : (t : Ty) → Int → t.Val → Reader RecvError t.Val
  | .scalar s, size, _ => s.recv size
  | .array _ element, _, out => do
      let count ← recvArrayHeader map element
      recvElements element.default
        (fun item => recvSized fun size => element.recv map none size item) out count
  | .composite kind fields, _, out => do
      readAndVerifyHeader fields.fieldsNumber (.composite kind fields)
      fields.recvFrames map out

/-- `detail::recv`. -/
def Slot.recv (map : OidMap) (oid : Option Oid) :
    (s : Slot) → Int → s.Val → Reader RecvError s.Val
  | .plain type, size, out => recvPlain map type oid size (type.recvImpl map size out)
  | .nullable type, size, out =>
      recvNullable map type oid size (type.recvImpl map size (Option.getD out type.default))
  | .null, _, _ => fail .notWritable

/-- `recv_frame` into every member of a composite, in order. -/
def Fields.recvFrames (map : OidMap) :
    (fields : Fields) → fields.Val → Reader RecvError fields.Val
  | .nil, out => pure out
  | .cons head tail, out => do
      let first ← recvTyped fun oid size => head.recv map oid size out.1
      let others ← tail.recvFrames map out.2
      pure (first, others)

end

/-- `recv_frame`. -/
def Slot.recvFrame (map : OidMap) (s : Slot) (out : s.Val) : Reader RecvError s.Val :=
  recvTyped fun oid size => s.recv map oid size out

end Bozo.Io
