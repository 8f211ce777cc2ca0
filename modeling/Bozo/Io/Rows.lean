import Bozo.Io.Recv

/-!
# Rows of a result

A row of a result is received into one object, into a sequence by position, or
into an adapted structure by the names of its members.
-/

namespace Bozo.Io

open Bozo.Bytes

/-- A value of a row, with the name and the type of its column. -/
structure Column where
  name : String
  oid : Oid
  /-- The bytes of the value; nothing for `NULL`. -/
  value : Option (List UInt8)

/-- `bozo::row`. -/
abbrev Row := List Column

/-- The exceptions of `recv_row`. -/
inductive RowError
  | notOneColumn (size : Nat)
  | sequenceSize (size number : Nat)
  | structureSize (size number : Nat)
  | noColumn (name : String)
  | value (error : RecvError)

/-- The text of an exception, with the name that the compiler gives to the
output type. -/
def RowError.what (demangle : Ty → String) (output : String) : RowError → String
  | .notOneColumn size =>
      "row size " ++ toString size ++ " does not equal 1 for single column result"
  | .sequenceSize size number =>
      "row size " ++ toString size ++ " does not match sequence " ++ output ++ " size " ++
        toString number
  | .structureSize size number =>
      "row size " ++ toString size ++ " does not match structure " ++ output ++ " size " ++
        toString number
  | .noColumn name => "row does not contain \"" ++ name ++ "\" column for " ++ output
  | .value error => error.what demangle

/-- `recv` of a value: a stream over its bytes is read with its oid and size. -/
def recvValue (map : OidMap) (s : Slot) (column : Column) (out : s.Val) :
    Except RowError s.Val :=
  match s.recv map (some column.oid)
      (column.value.elim nullStateSize fun bytes => int32 bytes.length) out
      (column.value.getD []) with
  | .ok (result, _) => .ok result
  | .error e => .error (.value e)

/-! ## Columns by name -/

/-- `PQfnumber`: the number of the first column with a name, or -1. -/
def Row.fieldNumber (row : Row) (name : String) : Int :=
  match row.findIdx? fun column => column.name == name with
  | none => -1
  | some i => i

/-- `row::find`, as a position; the length of the row stands for `end()`. -/
def Row.find (row : Row) (name : String) : Nat :=
  if row.fieldNumber name = -1 then row.length else (row.fieldNumber name).toNat

/-- Receive a member from the column of its name. -/
def recvMember (map : OidMap) (row : Row) (name : String) (s : Slot) (out : s.Val) :
    Except RowError s.Val :=
  match row[row.find name]? with
  | none => .error (.noColumn name)
  | some column => recvValue map s column out

/-- The names of the members of an adapted structure. -/
def Fields.Names : Fields → Type
  | .nil => Unit
  | .cons _ tail => String × tail.Names

/-- The names in the order of the members. -/
def Fields.Names.toList : {fields : Fields} → fields.Names → List String
  | .nil, _ => []
  | .cons _ _, names => names.1 :: Fields.Names.toList names.2

/-- Receive every member by its name, in order. -/
def Fields.recvMembers (map : OidMap) (row : Row) :
    (fields : Fields) → fields.Names → fields.Val → Except RowError fields.Val
  | .nil, _, out => .ok out
  | .cons head tail, names, out => do
      let first ← recvMember map row names.1 head out.1
      let others ← tail.recvMembers map row names.2 out.2
      pure (first, others)

/-! ## Columns by position -/

/-- Receive every member from the column at its position. -/
def Fields.recvColumns (map : OidMap) :
    (fields : Fields) → (row : Row) → row.length = fields.number → fields.Val →
      Except RowError fields.Val
  | .nil, _, _, out => .ok out
  | .cons _ _, [], sameNumber, _ => absurd sameNumber (Nat.zero_ne_add_one _)
  | .cons head tail, column :: columns, sameNumber, out => do
      let first ← recvValue map head column out.1
      let others ← tail.recvColumns map columns (Nat.succ.inj sameNumber) out.2
      pure (first, others)

/-! ## Rows -/

/-- What a row is received into. -/
inductive RowOut
  | value (s : Slot)
  | sequence (fields : Fields)
  | adapted (fields : Fields) (names : fields.Names)

def RowOut.Val : RowOut → Type
  | .value s => s.Val
  | .sequence fields | .adapted fields _ => fields.Val

def RowOut.default : (o : RowOut) → o.Val
  | .value s => s.default
  | .sequence fields | .adapted fields _ => fields.default

/-- `recv_row` into a sequence: by position. -/
def recvRowInOrder (map : OidMap) (fields : Fields) (row : Row) (out : fields.Val) :
    Except RowError fields.Val :=
  if sameNumber : row.length = fields.number then
    fields.recvColumns map row sameNumber out
  else
    .error (.sequenceSize row.length fields.number)

/-- `recv_row` into an adapted structure: by name. -/
def recvRowByName (map : OidMap) (fields : Fields) (names : fields.Names) (row : Row)
    (out : fields.Val) : Except RowError fields.Val :=
  if row.length = fields.number then
    fields.recvMembers map row names out
  else
    .error (.structureSize row.length fields.number)

/-- `recv_row`. -/
def recvRow (map : OidMap) : (o : RowOut) → Row → o.Val → Except RowError o.Val
  | .value s, [column], out => recvValue map s column out
  | .value _, row, _ => .error (.notOneColumn row.length)
  | .sequence fields, row, out => recvRowInOrder map fields row out
  | .adapted fields names, row, out => recvRowByName map fields names row out

end Bozo.Io
