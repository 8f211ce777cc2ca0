import Bozo.Detail.Base36
import Bozo.Failover.Retry
import Bozo.Sqlstate.Codes

/-!
# Error conditions

An error code is equal to a condition when the category of one of the two says
so.  The category of SQL states takes a code for a condition that stands for the
class of the code; the category of `errc` compares the code with the entries of a
table.
-/

namespace Bozo

open Bozo.Detail

/-- `boost::system::error_condition`. -/
structure ErrorCondition where
  value : Int
  category : Category
  deriving DecidableEq, Repr

/-- The values of `errno` that have a generic condition. -/
def posixErrnos : List Int :=
  [0, 97, 98, 99, 106, 7, 33, 14, 9, 74, 32, 103, 114, 111, 104, 18, 89, 16, 39, 8, 17, 27, 36,
    38, 113, 43, 84, 25, 4, 22, 29, 5, 21, 90, 100, 102, 101, 105, 10, 67, 37, 61, 42, 92, 28, 63,
    6, 19, 2, 3, 20, 88, 60, 107, 12, 95, 125, 115, 1, 11, 130, 13, 71, 93, 30, 35, 34, 131, 62,
    26, 110, 23, 24, 31, 40, 75, 91]

/-- `error_code::default_error_condition`.  Only the system category overrides
it. -/
def ErrorCode.defaultErrorCondition (ec : ErrorCode) : ErrorCondition :=
  if ec.category = .system ∧ ec.value ∈ posixErrnos then
    ⟨ec.value, .generic⟩
  else
    ⟨ec.value, ec.category⟩

/-- `error_category::equivalent` where it is not overridden. -/
def Category.equivalent (category : Category) (ec : ErrorCode) (condition : Int) : Bool :=
  decide (category = ec.category ∧ ec.value = condition)

/-! ## SQL states -/

namespace Sqlstate

/-- `sqlstate::make_error_condition`. -/
def condition (c : Sqlstate) : ErrorCondition :=
  ⟨c.value, .sqlstate⟩

/-- The width of a class, `01000` in base 36. -/
def classWidth : Int :=
  46656

/-- The test of a switch case of `equivalent`. -/
def valueIn (v : Int) (cond : Sqlstate) : Bool :=
  decide (cond.value ≤ v ∧ v < cond.value + classWidth)

/-- `sqlstate::impl::category::equivalent`. -/
def equivalent (ec : ErrorCode) (condition : Int) : Bool :=
  if ec.category = .sqlstate then
    match classes.find? fun c => decide (c.value = condition) with
    | some c => valueIn ec.value c
    | none => Category.equivalent .sqlstate ec condition
  else
    Category.equivalent .sqlstate ec condition

/-- The characters of a literal. -/
def ascii (text : String) : List UInt8 :=
  text.toList.map Char.toUInt8

/-- `sqlstate::impl::category::message`. -/
def message (value : Int) : List UInt8 :=
  match named.find? fun c => decide (c.value = value) with
  | some c => ascii c.name ++ ascii "(" ++ ltob36 value ++ ascii ")"
  | none => ascii "sql state " ++ ltob36 value

end Sqlstate

/-! ## Conditions of the library -/

/-- What a code is compared with: an enumerator of codes or one of
conditions. -/
inductive Matcher
  | code (ec : ErrorCode)
  | condition (cond : ErrorCondition)
  deriving DecidableEq, Repr

/-- `ec == x`.  The category of a condition is asked last. -/
def Matcher.isEqualBy (equivalent : Category → ErrorCode → Int → Bool) :
    Matcher → ErrorCode → Bool
  | .code other, ec => decide (ec = other)
  | .condition cond, ec =>
      decide (ec.defaultErrorCondition = cond) || equivalent cond.category ec cond.value

/-- `bozo::errc::code`. -/
inductive Errc
  | ok
  | connectionError
  | databaseReadonly
  | introspectionError
  | typeMismatch
  | protocolError
  deriving DecidableEq, Repr

namespace Errc

def value : Errc → Int
  | .ok => 0
  | .connectionError => 1
  | .databaseReadonly => 2
  | .introspectionError => 3
  | .typeMismatch => 4
  | .protocolError => 5

/-- `errc::make_error_condition`. -/
def condition (e : Errc) : ErrorCondition :=
  ⟨e.value, .errc⟩

/-- `codes_for_condition`; `ok` has none. -/
def codesForCondition : Errc → List Matcher
  | .ok => []
  | .connectionError =>
      [.condition Sqlstate.connectionException.condition,
        -- `broken_pipe`, `connection_aborted`, `connection_refused`, `connection_reset`,
        -- `fault`, `host_unreachable`, `interrupted`, `network_reset`, `not_connected`
        .code ⟨32, .system⟩, .code ⟨103, .system⟩, .code ⟨111, .system⟩, .code ⟨104, .system⟩,
        .code ⟨14, .system⟩, .code ⟨113, .system⟩, .code ⟨4, .system⟩, .code ⟨102, .system⟩,
        .code ⟨107, .system⟩, .code operationAborted,
        -- `shut_down`, `timed_out`, `try_again`
        .code ⟨108, .system⟩, .code ⟨110, .system⟩, .code ⟨11, .system⟩,
        -- `host_not_found`, `host_not_found_try_again`, `no_data`, `no_recovery`
        .code ⟨1, .netdb⟩, .code ⟨2, .netdb⟩, .code ⟨4, .netdb⟩, .code ⟨3, .netdb⟩,
        -- `boost::system::errc::io_error`
        .condition ⟨5, .generic⟩,
        .code Error.pqConnectionStartFailed.code, .code Error.pqSocketFailed.code,
        .code Error.pqConnectionStatusBad.code, .code Error.pqConnectPollFailed.code,
        .code Error.pgSendQueryParamsFailed.code, .code Error.pgConsumeInputFailed.code,
        .code Error.pgSetNonblockingFailed.code, .code Error.pgFlushFailed.code]
  | .databaseReadonly => [.condition Sqlstate.readOnlySqlTransaction.condition]
  | .introspectionError =>
      [.code Error.badResultProcess.code, .code Error.badObjectSize.code,
        .code Error.badArraySize.code, .code Error.badArrayDimension.code,
        .code Error.badCompositeSize.code, .code Error.unexpectedEof.code]
  | .typeMismatch => [.code Error.oidTypeMismatch.code]
  | .protocolError =>
      [.code Error.noSqlStateFound.code, .code Error.resultStatusUnexpected.code,
        .code Error.resultStatusEmptyQuery.code, .code Error.resultStatusBadResponse.code,
        .code Error.oidRequestFailed.code]

/-- `equivalent` of a category other than that of `errc`. -/
def otherEquivalent : Category → ErrorCode → Int → Bool
  | .sqlstate => Sqlstate.equivalent
  | category => category.equivalent

/-- `errc::impl::match_code`.  No entry of the table is a condition of `errc`. -/
def matchCode (e : Errc) (ec : ErrorCode) : Bool :=
  Failover.matchCode (Matcher.isEqualBy otherEquivalent) e.codesForCondition ec

/-- `errc::impl::category::equivalent`. -/
def equivalent (ec : ErrorCode) : Int → Bool
  | 0 => decide (ec = ErrorCode.success)
  | 1 => matchCode .connectionError ec
  | 2 => matchCode .databaseReadonly ec
  | 3 => matchCode .introspectionError ec
  | 4 => matchCode .typeMismatch ec
  | 5 => matchCode .protocolError ec
  | condition => Category.equivalent .errc ec condition

end Errc

/-- `equivalent` of any category. -/
def Category.equivalentTo : Category → ErrorCode → Int → Bool
  | .errc => Errc.equivalent
  | category => Errc.otherEquivalent category

/-- `ec == x`. -/
def Matcher.isEqual : Matcher → ErrorCode → Bool :=
  Matcher.isEqualBy Category.equivalentTo

/-- Whether a code is equal to a condition of the library. -/
def ErrorCode.is (ec : ErrorCode) (e : Errc) : Bool :=
  Matcher.isEqual (.condition e.condition) ec

end Bozo
