import Bozo.Bytes.Reader

/-!
# The types of the binary codec

A codec type is what remains of a C++ type after `unwrap`: a scalar, a
one-dimensional array or a composite.  A slot is a type as it stands in a query
parameter, an array element or a structure member, where it may be wrapped in a
nullable.  The values of a type are computed from it, so that the codec's
overloads become functions by recursion on the type, as the templates are
instantiated.

`std::nullptr_t` and `std::nullopt_t` are the slot `null`, which holds no value
and is never received.
-/

namespace Bozo.Io

open Bozo.Bytes

/-- `bozo::oid_t`. -/
abbrev Oid := Word 4

/-- The types that are encoded without inner frames. -/
inductive Scalar
  | bool | char | int2 | int4 | int8 | oid | float4 | float8
  | uuid | interval | timestamp
  | text | bytea | name | json
  | jsonb | ltree
  deriving DecidableEq, Repr

/-- How a composite is defined: `std::tuple` and `std::pair` are records, an
adapted structure is a custom type of the database. -/
inductive CompositeKind
  | record
  | custom (name : String)
  deriving DecidableEq, Repr

mutual

/-- A codec type after `unwrap`.  An array with a bound is `std::array<T, N>`,
one without is a resizable container. -/
inductive Ty
  | scalar (s : Scalar)
  | array (bound : Option Nat) (element : Slot)
  | composite (kind : CompositeKind) (fields : Fields)

/-- A type as it stands in a parameter, an element or a member. -/
inductive Slot
  | plain (type : Ty)
  | nullable (type : Ty)
  | null

/-- The members of a composite, in order. -/
inductive Fields
  | nil
  | cons (head : Slot) (tail : Fields)

end

/-! ## Values -/

/-- The values of a scalar.  Integers and floating point numbers are their bit
patterns, an interval is its count of microseconds and a timestamp its count of
`system_clock` ticks. -/
def Scalar.Val : Scalar → Type
  | .bool => Bool
  | .char => UInt8
  | .int2 => Word 2
  | .int4 | .oid | .float4 => Word 4
  | .int8 | .float8 | .interval | .timestamp => Word 8
  | .uuid => { bytes : List UInt8 // bytes.length = 16 }
  | .text | .bytea | .name | .json | .jsonb | .ltree => List UInt8

/-- The contents of a container that represents an array.  A fixed-size
container always has its number of elements. -/
@[ext]
structure Container (bound : Option Nat) (α : Type) where
  items : List α
  length_eq : ∀ n, bound = some n → items.length = n

mutual

/-- The values of a codec type. -/
def Ty.Val : Ty → Type
  | .scalar s => s.Val
  | .array bound element => Container bound element.Val
  | .composite _ fields => fields.Val

/-- The values of a slot; a nullable may be in the null state. -/
def Slot.Val : Slot → Type
  | .plain type => type.Val
  | .nullable type => Option type.Val
  | .null => Unit

/-- The values of a composite's members. -/
def Fields.Val : Fields → Type
  | .nil => Unit
  | .cons head tail => head.Val × tail.Val

end

/-- `bozo::is_null`. -/
def Slot.isNull : (s : Slot) → s.Val → Bool
  | .plain _, _ => false
  | .nullable _, v => Option.isNone v
  | .null, _ => true

/-- The number of members of a composite. -/
def Fields.number : Fields → Nat
  | .nil => 0
  | .cons _ tail => tail.number + 1

/-- `fields_number`, converted to `size_type`. -/
def Fields.fieldsNumber (fields : Fields) : Int :=
  int32 fields.number

/-! ## Default-constructed values -/

def Scalar.default : (s : Scalar) → s.Val
  | .bool => false
  | .char => (0 : UInt8)
  | .int2 => (0 : Word 2)
  | .int4 | .oid | .float4 => (0 : Word 4)
  | .int8 | .float8 | .interval | .timestamp => (0 : Word 8)
  | .uuid => ⟨List.replicate 16 0, by simp⟩
  | .text | .bytea | .name | .json | .jsonb | .ltree => ([] : List UInt8)

/-- A container of default-constructed elements: empty when resizable. -/
def Container.default {α : Type} (bound : Option Nat) (element : α) : Container bound α where
  items := List.replicate (bound.getD 0) element
  length_eq := by
    rintro n rfl
    simp

mutual

def Ty.default : (t : Ty) → t.Val
  | .scalar s => s.default
  | .array bound element => Container.default bound element.default
  | .composite _ fields => fields.default

def Slot.default : (s : Slot) → s.Val
  | .plain type => type.default
  | .nullable _ => none
  | .null => ()

def Fields.default : (fields : Fields) → fields.Val
  | .nil => ()
  | .cons head tail => (head.default, tail.default)

end

/-! ## Type traits -/

/-- `type_traits<T>::size` of a scalar; `none` is `dynamic_size`. -/
def Scalar.size : Scalar → Option Nat
  | .bool | .char => some 1
  | .int2 => some 2
  | .int4 | .oid | .float4 => some 4
  | .int8 | .float8 | .timestamp => some 8
  | .uuid | .interval => some 16
  | .text | .bytea | .name | .json | .jsonb | .ltree => none

/-- `type_traits<T>::size`.  Arrays and composites are defined with a dynamic
size, whatever they contain. -/
def Ty.size : Ty → Option Nat
  | .scalar s => s.size
  | .array _ _ | .composite _ _ => none

/-- `type_traits<T>::oid` of a scalar; `none` for a type defined by the
database (`BOZO_PG_DEFINE_CUSTOM_TYPE`). -/
def Scalar.oid? : Scalar → Option Oid
  | .bool => some 16
  | .char => some 18
  | .int2 => some 21
  | .int4 => some 23
  | .int8 => some 20
  | .oid => some 26
  | .float4 => some 700
  | .float8 => some 701
  | .uuid => some 2950
  | .interval => some 1186
  | .timestamp => some 1114
  | .text => some 25
  | .bytea => some 17
  | .name => some 19
  | .json => some 114
  | .jsonb => some 3802
  | .ltree => none

/-- `definitions::array<T>::oid` for a scalar element.  The interval has no
array definition, so that only a user's registration can provide one. -/
def Scalar.arrayOid? : Scalar → Option Oid
  | .bool => some 1000
  | .char => some 1002
  | .int2 => some 1005
  | .int4 => some 1007
  | .int8 => some 1016
  | .oid => some 1028
  | .float4 => some 1021
  | .float8 => some 1022
  | .uuid => some 2951
  | .interval => none
  | .timestamp => some 1115
  | .text => some 1009
  | .bytea => some 1001
  | .name => some 1003
  | .json => some 199
  | .jsonb => some 3807
  | .ltree => none

/-- The oid of an array by its unwrapped element type. -/
def Ty.arrayOid? : Ty → Option Oid
  | .scalar s => s.arrayOid?
  | .composite .record _ => some 2287
  | .composite (.custom _) _ | .array _ _ => none

/-- `type_traits<T>::oid`; `none` for a type that is not built in. -/
def Ty.oid? : Ty → Option Oid
  | .scalar s => s.oid?
  | .array _ (.plain type) | .array _ (.nullable type) => type.arrayOid?
  | .array _ .null => none
  | .composite .record _ => some 2249
  | .composite (.custom _) _ => none

/-- An `OidMap` by what it holds for each registered type. -/
abbrev OidMap := Ty → Oid

/-- `type_oid<T>(map)`: the constant of a built-in type, otherwise the map's
entry for the unwrapped type. -/
def Ty.typeOid (map : OidMap) (t : Ty) : Oid :=
  t.oid?.getD (map t)

/-- `type_oid` of a slot.  The null pseudo-type has `null_oid`. -/
def Slot.typeOid (map : OidMap) : Slot → Oid
  | .plain type | .nullable type => type.typeOid map
  | .null => 0

/-- `StaticSize<T>`: the trait of the unwrapped type is not `dynamic_size`.  The
trait of the null pseudo-type is `null_state_size`, which is another type. -/
def Slot.staticSize : Slot → Bool
  | .plain type | .nullable type => type.size.isSome
  | .null => true

end Bozo.Io
