import Bozo.Errc
import Bozo.Impl.AsyncRequest
import Bozo.Io.Results

/-!
# Errors while a result is processed

A result is decoded inside `process_and_done`, which catches every exception and
reports one code of its own.  Here the conditions of the code that an exception
carried are compared with those of the code that the handler is given.
-/

namespace Bozo.Io

open Bozo

/-- The code of a `system_error`; the other exceptions carry none. -/
def RecvError.code? : RecvError → Option ErrorCode
  | .unexpectedEof => some Error.unexpectedEof.code
  | .badObjectSize _ _ => some Error.badObjectSize.code
  | .badArrayDimension _ => some Error.badArrayDimension.code
  | .badArraySize _ _ => some Error.badArraySize.code
  | .badCompositeSize _ _ _ => some Error.badCompositeSize.code
  | .elementOidMismatch _ _ | .oidTypeMismatch _ _ => some Error.oidTypeMismatch.code
  -- `invalid_argument`, `range_error` and `length_error`
  | .unexpectedNull _ | .tooSmall _ _ | .lengthError => none
  | .notWritable => none

/-- The code of a `system_error`; a row of the wrong size or without a column is
a `range_error`. -/
def RowError.code? : RowError → Option ErrorCode
  | .value error => error.code?
  | .notOneColumn _ | .sequenceSize _ _ | .structureSize _ _ | .noColumn _ => none

/-- The codes that a decoding failure carries. -/
theorem RowError.code?_eq_some {error : RowError} {c : ErrorCode} (carries : error.code? = some c) :
    c = Error.oidTypeMismatch.code ∨
      ∃ e ∈ [Error.unexpectedEof, .badObjectSize, .badArrayDimension, .badArraySize,
        .badCompositeSize], c = e.code := by
  cases error with
  | value error =>
      cases error with
      | elementOidMismatch | oidTypeMismatch =>
          cases carries
          exact .inl rfl
      | unexpectedEof | badObjectSize | badArrayDimension | badArraySize | badCompositeSize =>
          cases carries
          exact .inr ⟨_, by decide, rfl⟩
      | unexpectedNull | tooSmall | lengthError | notWritable => cases carries
  | notOneColumn | sequenceSize | structureSize | noColumn => cases carries

end Bozo.Io

namespace Bozo.Impl

open Bozo.Io

/-! ## Conditions -/

/-- Two codes with the same conditions. -/
def SameConditions (first second : ErrorCode) : Prop :=
  ∀ cond : Errc, first.is cond = second.is cond

instance (first second : ErrorCode) : Decidable (SameConditions first second) :=
  decidable_of_iff (([.ok, .connectionError, .databaseReadonly, .introspectionError,
      .typeMismatch, .protocolError] : List Errc).all fun cond =>
        first.is cond == second.is cond) <| by
    rw [List.all_eq_true]
    constructor
    · intro all cond
      exact eq_of_beq (all cond (by cases cond <;> decide))
    · intro same cond _
      exact beq_iff_eq.mpr (same cond)

/-- Whether an error is one of the conditions that a role or a retry is given. -/
def canRecover (conditions : List Errc) (ec : ErrorCode) : Bool :=
  Failover.matchCode Matcher.isEqual (conditions.map fun cond => .condition cond.condition) ec

/-- The conditions of the role `master`. -/
def masterConditions : List Errc :=
  [.connectionError, .typeMismatch, .protocolError, .databaseReadonly]

/-- The conditions of the role `replica`. -/
def replicaConditions : List Errc :=
  [.connectionError, .typeMismatch, .protocolError]

/-- Codes with the same conditions are recovered by the same roles. -/
theorem SameConditions.canRecover_eq {first second : ErrorCode}
    (same : SameConditions first second) (conditions : List Errc) :
    canRecover conditions first = canRecover conditions second := by
  induction conditions with
  | nil => rfl
  | cons cond conditions ih =>
      change (first.is cond || canRecover conditions first) =
        (second.is cond || canRecover conditions second)
      rw [same cond, ih]

/-- The other errors of the decoder have the conditions of the code that stands
for all of them. -/
theorem sameConditions_badResultProcess {e : Error}
    (member : e ∈ [Error.unexpectedEof, .badObjectSize, .badArrayDimension, .badArraySize,
      .badCompositeSize]) : SameConditions Error.badResultProcess.code e.code := by
  simp only [List.mem_cons, List.not_mem_nil, or_false] at member
  rcases member with rfl | rfl | rfl | rfl | rfl <;> decide

/-! ## What the handler is given -/

section Process

-- The rows of a result are what libpq answers about it.
variable (map : OidMap) (o : RowOut) (demangle : Ty → String) (output : String)
  (rowsOf : PgResult → List Row)

/-- `async_request_out_handler`: the text of the exception that ends the decoding
of the rows. -/
def outHandler (res : PgResult) : Option String :=
  (decodeError map o (rowsOf res)).map (RowError.what demangle output)

variable {map o demangle output rowsOf}

/-- Whatever the exception, the handler is given the same code. -/
theorem finish_of_decodeError (r : Request) {res : PgResult} {error : RowError}
    (isOk : res.status.isOk = true) (fails : decodeError map o (rowsOf res) = some error) :
    (r.finish (handleResult (outHandler map o demangle output rowsOf) res)).calls =
      r.calls ++ [Error.badResultProcess.code] := by
  have thrown : outHandler map o demangle output rowsOf res = some (error.what demangle output) := by
    rw [outHandler, fails, Option.map_some]
  unfold handleResult
  cases status : res.status with
  | singleTuple | tuplesOk | commandOk =>
      simp only [thrown]
      rfl
  | emptyQuery | badResponse | fatalError | copyOut | copyIn | copyBoth | nonfatalError |
    pipelineSync | pipelineAborted | tuplesChunk | unknown =>
      rw [status] at isOk
      cases isOk

variable (map o demangle output rowsOf)

/-- When a row cannot be decoded for a reason with a code, the handler is given a
code with the same conditions exactly when the reason is not a mismatch of
types. -/
theorem delivered_sameConditions_iff (r : Request) {res : PgResult} {error : RowError}
    {c : ErrorCode} (isOk : res.status.isOk = true)
    (fails : decodeError map o (rowsOf res) = some error) (carries : error.code? = some c) :
    (∃ delivered,
        (r.finish (handleResult (outHandler map o demangle output rowsOf) res)).calls =
          r.calls ++ [delivered] ∧
        SameConditions delivered c ∧
        ∀ conditions, canRecover conditions delivered = canRecover conditions c) ↔
      c ≠ Error.oidTypeMismatch.code := by
  have calls : (r.finish (handleResult (outHandler map o demangle output rowsOf) res)).calls =
      r.calls ++ [Error.badResultProcess.code] := finish_of_decodeError r isOk fails
  constructor
  · rintro ⟨delivered, called, same, -⟩ rfl
    rw [calls, List.append_right_inj, List.singleton_inj] at called
    rw [← called] at same
    exact absurd (same .typeMismatch) (by decide)
  · intro differs
    rcases RowError.code?_eq_some carries with mismatch | ⟨e, member, rfl⟩
    · exact absurd mismatch differs
    · have same := sameConditions_badResultProcess member
      exact ⟨_, calls, same, same.canRecover_eq⟩

end Process

/-- A request for numbers. -/
def numberOut : RowOut :=
  .value (.plain (.scalar .int4))

/-- A number that is cut short. -/
def shortRow : Row :=
  [⟨"n", 23, some [0, 0, 1]⟩]

/-- A column of the type `text`. -/
def textRow : Row :=
  [⟨"n", 25, some [0, 0, 0, 1]⟩]

theorem delivered_sameConditions_shortRow :
    ∃ delivered,
      ((Request.initial "").finish (handleResult
        (outHandler (fun _ => 0) numberOut (fun _ => "int") "int" fun _ => [shortRow])
        ⟨.tuplesOk, none⟩)).calls = [delivered] ∧
      SameConditions delivered Error.badObjectSize.code := by
  have isOk : (⟨.tuplesOk, none⟩ : PgResult).status.isOk = true := rfl
  have sent : decodeError (fun _ => 0) numberOut [shortRow] =
      some (.value (.badObjectSize 3 4)) := rfl
  obtain ⟨delivered, calls, same, -⟩ :=
    (delivered_sameConditions_iff (fun _ => 0) numberOut (fun _ => "int") "int"
      (fun _ => [shortRow]) (Request.initial "") isOk sent rfl).mpr
        (by decide)
  exact ⟨delivered, calls, same⟩

/-- A column of another type than the expected one is reported with a code that is
not `type_mismatch`, which the roles do not recover. -/
theorem delivered_not_typeMismatch :
    ((Request.initial "").finish (handleResult
        (outHandler (fun _ => 0) numberOut (fun _ => "int") "int" fun _ => [textRow])
        ⟨.tuplesOk, none⟩)).calls = [Error.badResultProcess.code] ∧
      decodeError (fun _ => 0) numberOut [textRow] =
        some (.value (.oidTypeMismatch 25 (.scalar .int4))) ∧
      (RowError.value (.oidTypeMismatch 25 (.scalar .int4))).code? =
        some Error.oidTypeMismatch.code ∧
      ¬SameConditions Error.badResultProcess.code Error.oidTypeMismatch.code ∧
      canRecover masterConditions Error.oidTypeMismatch.code = true ∧
      canRecover masterConditions Error.badResultProcess.code = false ∧
      canRecover replicaConditions Error.oidTypeMismatch.code = true ∧
      canRecover replicaConditions Error.badResultProcess.code = false := by
  exact ⟨rfl, rfl, rfl, by decide, by decide, by decide, by decide, by decide⟩

end Bozo.Impl
