import Bozo.Bytes.Order

/-!
# Error codes

An error code is a value in a category and tests false exactly when the value
is zero.  The code of an SQL error is made from the SQLSTATE text, read as a
number in base 36.
-/

namespace Bozo

open Bozo.Bytes

/-- The categories of the error codes and conditions that occur. -/
inductive Category
  | bozo
  | sqlstate
  | system
  | netdb
  | generic
  | errc
  deriving DecidableEq, Repr

/-- `boost::system::error_code`. -/
structure ErrorCode where
  value : Int
  category : Category
  deriving DecidableEq, Repr

/-- Whether an error code tests true. -/
def ErrorCode.failed (ec : ErrorCode) : Bool :=
  decide (ec.value ≠ 0)

/-- A default-constructed error code. -/
def ErrorCode.success : ErrorCode :=
  ⟨0, .system⟩

/-- `bozo::error::code`. -/
inductive Error
  | ok
  | pqConnectionStartFailed
  | pqSocketFailed
  | pqConnectionStatusBad
  | pqConnectPollFailed
  | oidTypeMismatch
  | unexpectedEof
  | pgSendQueryParamsFailed
  | pgConsumeInputFailed
  | pgSetNonblockingFailed
  | pgFlushFailed
  | badResultProcess
  | noSqlStateFound
  | resultStatusUnexpected
  | resultStatusEmptyQuery
  | resultStatusBadResponse
  | oidRequestFailed
  | badObjectSize
  | badArraySize
  | badArrayDimension
  | badCompositeSize
  | pqCancelFailed
  | pqGetCancelFailed
  deriving DecidableEq, Repr

/-- The value of an enumerator. -/
def Error.value : Error → Int
  | .ok => 0
  | .pqConnectionStartFailed => 1
  | .pqSocketFailed => 2
  | .pqConnectionStatusBad => 3
  | .pqConnectPollFailed => 4
  | .oidTypeMismatch => 5
  | .unexpectedEof => 6
  | .pgSendQueryParamsFailed => 7
  | .pgConsumeInputFailed => 8
  | .pgSetNonblockingFailed => 9
  | .pgFlushFailed => 10
  | .badResultProcess => 11
  | .noSqlStateFound => 12
  | .resultStatusUnexpected => 13
  | .resultStatusEmptyQuery => 14
  | .resultStatusBadResponse => 15
  | .oidRequestFailed => 16
  | .badObjectSize => 17
  | .badArraySize => 18
  | .badArrayDimension => 19
  | .badCompositeSize => 20
  | .pqCancelFailed => 21
  | .pqGetCancelFailed => 22

/-- `error::make_error_code`. -/
def Error.code (e : Error) : ErrorCode :=
  ⟨e.value, .bozo⟩

/-- `message` of the category of these codes. -/
def Error.message : Error → String
  | .ok => "no error"
  | .pqConnectionStartFailed => "pq_connection_start_failed - PQConnectionStart function failed"
  | .pqSocketFailed =>
      "pq_socket_failed - PQSocket returned -1 as fd - it seems like there is no connection"
  | .pqConnectionStatusBad => "pq_connection_status_bad - PQstatus returned CONNECTION_BAD"
  | .pqConnectPollFailed => "pq_connect_poll_failed - PQconnectPoll function failed"
  | .oidTypeMismatch => "no conversion possible from oid to user-supplied type"
  | .unexpectedEof => "unexpected EOF while data read"
  | .pgSendQueryParamsFailed => "pg_send_query_params_failed - PQsendQueryParams function failed"
  | .pgConsumeInputFailed => "pg_consume_input_failed - PQconsumeInput function failed"
  | .pgSetNonblockingFailed => "pg_set_nonblocking_failed - PQsetnonblocking function failed"
  | .pgFlushFailed => "pg_flush_failed - PQflush function failed"
  | .badResultProcess =>
      "bad_result_process - error while processing or converting result from the database"
  | .noSqlStateFound =>
      "no_sql_state_found - no sql state has been found in database query execution error reply"
  | .resultStatusUnexpected =>
      "result_status_unexpected - got unexpected status from query result"
  | .resultStatusEmptyQuery =>
      "result_status_empty_query - the string sent to the server was empty"
  | .resultStatusBadResponse =>
      "result_status_bad_response - the server's response was not understood"
  | .oidRequestFailed => "error during request oids from a database"
  | .badObjectSize => "an object size received does not equal to the expected"
  | .badArraySize =>
      "an array size received does not equal to the expected or not supported by the type"
  | .badArrayDimension => "an array dimension count received does not equal to the expected or " ++
      "not supported by the type"
  | .badCompositeSize =>
      "a composite's fields number received does not equal to the expected or " ++
        "not supported by the type"
  | .pqCancelFailed => "libpq PQcancel function call failed"
  | .pqGetCancelFailed => "libpq PQgetCancel function call failed"

/-- `what` of a `system_error` with a text: the message of the code follows it. -/
def Error.what (e : Error) (text : String) : String :=
  if text.isEmpty then e.message else text ++ ": " ++ e.message

/-- Only the placeholder tests false. -/
@[simp]
theorem Error.failed_code (e : Error) : e.code.failed = decide (e ≠ .ok) := by
  cases e <;> rfl

/-- `asio::error::bad_descriptor`. -/
def badDescriptor : ErrorCode :=
  ⟨9, .system⟩

/-- `asio::error::operation_aborted`. -/
def operationAborted : ErrorCode :=
  ⟨125, .system⟩

/-! ## SQLSTATE -/

/-- `std::isspace` in the C locale. -/
def isSpace (b : UInt8) : Bool :=
  b == 32 || (9 ≤ b && b ≤ 13)

/-- A digit of base 36. -/
def digit36? (b : UInt8) : Option Nat :=
  if 48 ≤ b ∧ b ≤ 57 then
    some (b.toNat - 48)
  else if 65 ≤ b ∧ b ≤ 90 then
    some (b.toNat - 55)
  else if 97 ≤ b ∧ b ≤ 122 then
    some (b.toNat - 87)
  else
    none

/-- The number that the leading digits of a text continue. -/
def digits36 (value : Nat) : List UInt8 → Nat
  | [] => value
  | b :: text =>
      match digit36? b with
      | some digit => digits36 (value * 36 + digit) text
      | none => value

/-- `std::strtol(text, nullptr, 36)`, clamped to the range of `long`. -/
def strtol36 (text : List UInt8) : Int :=
  match text.dropWhile isSpace with
  | 45 :: rest => max (-2 ^ 63) (-(digits36 0 rest : Int))
  | 43 :: rest => min (2 ^ 63 - 1) (digits36 0 rest)
  | rest => min (2 ^ 63 - 1) (digits36 0 rest)

/-- `sqlstate::make_error_code`, which takes an `int`. -/
def sqlstateCode (value : Int) : ErrorCode :=
  ⟨int32 value, .sqlstate⟩

end Bozo
