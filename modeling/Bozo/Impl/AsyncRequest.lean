import Bozo.Error
import Bozo.Transition.Runs

/-!
# One request on a connection

A request consists of two operations that share a context: one flushes the query
and waits for writability, the other fetches results and waits for readability.
The context keeps the handler and a query state by which the operations take
notice of each other.

An event is the start of the request or the completion of a pending wait.  It
carries what the libpq functions answer while the resumed operation runs to its
next wait or to its end; completions come in any order and with any error.  The
operations run on one strand, so that each of them runs undisturbed.
-/

namespace Bozo.Impl

open Bozo.Transition

/-! ## Results -/

/-- `ExecStatusType`; a value without a name is `unknown`. -/
inductive ExecStatus
  | emptyQuery | commandOk | tuplesOk | copyOut | copyIn | badResponse | nonfatalError
  | fatalError | copyBoth | singleTuple | pipelineSync | pipelineAborted | tuplesChunk
  | unknown
  deriving DecidableEq, Repr

/-- What is read of a `PGresult`: its status and the SQLSTATE field. -/
structure PgResult where
  status : ExecStatus
  sqlState : Option (List UInt8)
  deriving DecidableEq, Repr

/-- `get_result_status_name`. -/
def getResultStatusName : ExecStatus → String
  | .singleTuple => "PGRES_SINGLE_TUPLE"
  | .tuplesOk => "PGRES_TUPLES_OK"
  | .commandOk => "PGRES_COMMAND_OK"
  | .copyOut => "PGRES_COPY_OUT"
  | .copyIn => "PGRES_COPY_IN"
  | .copyBoth => "PGRES_COPY_BOTH"
  | .nonfatalError => "PGRES_NONFATAL_ERROR"
  | .badResponse => "PGRES_BAD_RESPONSE"
  | .emptyQuery => "PGRES_EMPTY_QUERY"
  | .fatalError => "PGRES_FATAL_ERROR"
  | .pipelineSync => "PGRES_PIPELINE_SYNC"
  | .pipelineAborted => "PGRES_PIPELINE_ABORTED"
  | .tuplesChunk => "PGRES_TUPLES_CHUNK"
  | .unknown => "unknown"

/-- `result_error`. -/
def resultError (res : PgResult) : ErrorCode :=
  match res.sqlState with
  | some text => sqlstateCode (strtol36 text)
  | none => Error.noSqlStateFound.code

/-- A status that is processed as a result. -/
def ExecStatus.isOk : ExecStatus → Bool
  | .singleTuple | .tuplesOk | .commandOk => true
  | _ => false

/-! ## The operation that fetches results -/

/-- What a libpq function answers. -/
inductive Answer
  | isBusy (busy : Bool)
  | consumeInput (ok : Bool)
  | getResult (res : Option PgResult)
  deriving DecidableEq, Repr

/-- How an operation ends: dropped without a call, with `done()`, or with
`done(ec)` after setting an error context. -/
inductive Finish
  | ignored
  | success
  | failure (ec : ErrorCode) (context : Option String)
  deriving DecidableEq, Repr

/-- Where the coroutine waits for readability: before the first result, or
while further results are dropped. -/
inductive ReadPoint
  | first
  | drain (res : PgResult)
  deriving DecidableEq, Repr

inductive Progress
  | wait (point : ReadPoint)
  | finish (how : Finish)
  deriving DecidableEq, Repr

section Operation

-- The result processor; `some` is the text of the exception it throws.
variable (process : PgResult → Option String)

/-- `handle_result` and `process_and_done`. -/
def handleResult (res : PgResult) : Finish :=
  match res.status with
  | .singleTuple | .tuplesOk | .commandOk =>
      match process res with
      | none => .success
      | some what => .failure Error.badResultProcess.code (some what)
  | .badResponse => .failure Error.resultStatusBadResponse.code none
  | .emptyQuery => .failure Error.resultStatusEmptyQuery.code none
  | .fatalError => .failure (resultError res) none
  | status =>
      .failure Error.resultStatusUnexpected.code (some (getResultStatusName status))

/-- The loop that drops the results behind the first one.  The results that
were fetched are returned for reference; `none` means that the answers do not
fit the calls. -/
def drain (res : PgResult) : List Answer → Option (List PgResult × Progress)
  | .isBusy true :: _ => some ([], .wait (.drain res))
  | .isBusy false :: .getResult none :: _ => some ([], .finish (handleResult process res))
  | .isBusy false :: .getResult (some other) :: answers =>
      (drain res answers).map fun (fetched, progress) => (other :: fetched, progress)
  | _ => none

/-- The loop up to the first result, and what follows it. -/
def awaitFirst : List Answer → Option (List PgResult × Progress)
  | .isBusy true :: _ => some ([], .wait .first)
  | .isBusy false :: .getResult none :: _ => some ([], .finish .success)
  | .isBusy false :: .getResult (some res) :: answers =>
      if res.status ≠ .singleTuple then
        (drain process res answers).map fun (fetched, progress) => (res :: fetched, progress)
      else
        some ([res], .finish (handleResult process res))
  | _ => none

/-- The coroutine from where it stands. -/
def resume : Option ReadPoint → List Answer → Option (List PgResult × Progress)
  | none, answers => awaitFirst process answers
  | some .first, .consumeInput true :: answers => awaitFirst process answers
  | some .first, .consumeInput false :: _ =>
      some ([], .finish (.failure Error.pgConsumeInputFailed.code none))
  | some (.drain res), .consumeInput true :: answers => drain process res answers
  | some (.drain res), .consumeInput false :: _ => some ([], .finish (handleResult process res))
  | _, _ => none

end Operation

section Answers

variable {process : PgResult → Option String}

theorem handleResult_eq_success_iff (res : PgResult) :
    handleResult process res = .success ↔ res.status.isOk = true ∧ process res = none := by
  unfold handleResult ExecStatus.isOk
  cases status : res.status <;> cases processed : process res <;> simp

/-- The answers by which results are dropped without a wait. -/
def drainAnswers : List PgResult → List Answer
  | [] => [.isBusy false, .getResult none]
  | res :: later => .isBusy false :: .getResult (some res) :: drainAnswers later

theorem drain_eq_finish_iff {res : PgResult} {answers : List Answer} {fetched : List PgResult}
    {how : Finish} :
    drain process res answers = some (fetched, .finish how) ↔
      handleResult process res = how ∧ ∃ rest, answers = drainAnswers fetched ++ rest := by
  fun_induction drain process res answers generalizing fetched with
  | case1 rest =>
      constructor
      · nofun
      · rintro ⟨-, rest, same⟩
        cases fetched <;> cases same
  | case2 rest =>
      constructor
      · rintro ⟨⟩
        exact ⟨rfl, rest, rfl⟩
      · rintro ⟨rfl, rest, same⟩
        cases fetched <;> cases same
        rfl
  | case3 other answers ih =>
      rw [Option.map_eq_some_iff]
      constructor
      · rintro ⟨⟨more, progress⟩, drained, same⟩
        cases same
        rcases ih.mp drained with ⟨handled, rest, rfl⟩
        exact ⟨handled, rest, rfl⟩
      · rintro ⟨handled, rest, same⟩
        cases fetched with
        | nil => cases same
        | cons first later =>
            cases same
            exact ⟨_, ih.mpr ⟨handled, rest, rfl⟩, rfl⟩
  | case4 answers busy ended more =>
      constructor
      · nofun
      · rintro ⟨-, rest, rfl⟩
        cases fetched with
        | nil => exact (ended _ rfl).elim
        | cons first later => exact (more _ _ rfl).elim

/-- `PQisBusy` answers true while results are dropped. -/
def DrainBusy : List Answer → Prop
  | .isBusy true :: _ => True
  | .isBusy false :: .getResult (some _) :: answers => DrainBusy answers
  | _ => False

/-- `PQisBusy` answers true before the first result or, unless that is a single
tuple, while the others are dropped. -/
def FirstBusy : List Answer → Prop
  | .isBusy true :: _ => True
  | .isBusy false :: .getResult (some res) :: answers =>
      res.status ≠ .singleTuple ∧ DrainBusy answers
  | _ => False

/-- The same from where the coroutine stands. -/
def StillBusy : Option ReadPoint → List Answer → Prop
  | none, answers => FirstBusy answers
  | some .first, .consumeInput true :: answers => FirstBusy answers
  | some (.drain _), .consumeInput true :: answers => DrainBusy answers
  | _, _ => False

theorem drain_waits_iff {res : PgResult} {answers : List Answer} {fetched : List PgResult}
    {progress : Progress} (drained : drain process res answers = some (fetched, progress)) :
    (∃ point, progress = .wait point) ↔ DrainBusy answers := by
  fun_induction drain process res answers generalizing fetched with
  | case1 =>
      cases drained
      exact iff_of_true ⟨_, rfl⟩ trivial
  | case2 =>
      cases drained
      exact iff_of_false nofun id
  | case3 other answers ih =>
      rcases Option.map_eq_some_iff.mp drained with ⟨⟨more, last⟩, onwards, same⟩
      cases same
      exact ih onwards
  | case4 => cases drained

theorem awaitFirst_waits_iff {answers : List Answer} {fetched : List PgResult}
    {progress : Progress} (awaited : awaitFirst process answers = some (fetched, progress)) :
    (∃ point, progress = .wait point) ↔ FirstBusy answers := by
  revert awaited
  fun_cases awaitFirst process answers with
  | case1 =>
      rintro ⟨⟩
      exact iff_of_true ⟨_, rfl⟩ trivial
  | case2 =>
      rintro ⟨⟩
      exact iff_of_false nofun id
  | case3 res answers notSingle =>
      intro awaited
      rcases Option.map_eq_some_iff.mp awaited with ⟨⟨more, last⟩, drained, same⟩
      cases same
      exact (drain_waits_iff drained).trans (and_iff_right notSingle).symm
  | case4 res answers single =>
      rintro ⟨⟩
      exact iff_of_false nofun fun busy => single busy.1
  | case5 => nofun

theorem resume_waits_iff {point : Option ReadPoint} {answers : List Answer}
    {fetched : List PgResult} {progress : Progress}
    (resumed : resume process point answers = some (fetched, progress)) :
    (∃ point, progress = .wait point) ↔ StillBusy point answers := by
  revert resumed
  fun_cases resume process point answers with
  | case1 => exact awaitFirst_waits_iff
  | case2 => exact awaitFirst_waits_iff
  | case3 =>
      rintro ⟨⟩
      exact iff_of_false nofun id
  | case4 => exact drain_waits_iff
  | case5 =>
      rintro ⟨⟩
      exact iff_of_false nofun id
  | case6 => nofun

end Answers

/-! ## The request -/

/-- `query_state`. -/
inductive QueryState
  | error
  | sendFinish
  | sendInProgress
  deriving DecidableEq, Repr

/-- The state of the operation that fetches results. -/
inductive Reading
  | notStarted
  | waiting (point : ReadPoint)
  | finished
  deriving DecidableEq, Repr

/-- A request: the query state, the codes that the handler was invoked with, the
error context of the connection, whether a wait for writability is pending, the
operation that fetches results, and the results that were fetched. -/
structure Request where
  state : QueryState
  calls : List ErrorCode
  errorContext : String
  writeWait : Bool
  reading : Reading
  fetched : List PgResult
  deriving DecidableEq, Repr

/-- `async_get_result_op::operator()`. -/
def getResultOp (process : PgResult → Option String) (state : QueryState)
    (point : Option ReadPoint) (ec : ErrorCode) (answers : List Answer) :
    Option (List PgResult × Progress) :=
  if state = .error then
    some ([], .finish .ignored)
  else if ec.failed then
    some ([], .finish (.failure (if ec = badDescriptor then operationAborted else ec) none))
  else
    resume process point answers

namespace Request

def initial (context : String) : Request where
  state := .sendInProgress
  calls := []
  errorContext := context
  writeWait := false
  reading := .notStarted
  fetched := []

/-- `done(ctx, ec)`; the waits that it cancels complete later. -/
def done (r : Request) (ec : ErrorCode) : Request :=
  { r with state := .error, calls := r.calls ++ [ec] }

/-- `async_send_query_params_op::operator()` with the answer of `PQflush`. -/
def sendQueryParamsOp (r : Request) (ec : ErrorCode) (flush : Int) : Request :=
  if r.state ≠ .sendInProgress then
    r
  else if ec.failed then
    r.done ec
  else if flush = -1 then
    r.done Error.pgFlushFailed.code
  else if flush = 1 then
    { r with writeWait := true }
  else if flush = 0 then
    { r with state := .sendFinish }
  else
    r

/-- `async_send_query_params_op::perform`. -/
def perform (r : Request) (setNonblocking sendQueryParams flush : Int) : Request :=
  if setNonblocking ≠ 0 then
    r.done Error.pgSetNonblockingFailed.code
  else if sendQueryParams = 0 then
    r.done Error.pgSendQueryParamsFailed.code
  else
    r.sendQueryParamsOp .success flush

/-- What `async_send_query_params_op::operator()` can do. -/
inductive Sends (r : Request) (flush : Int) : Request → Prop
  | ignored : Sends r flush r
  | failed (inProgress : r.state = .sendInProgress) (ec : ErrorCode) (isError : ec.failed = true) :
      Sends r flush (r.done ec)
  | unflushed (inProgress : r.state = .sendInProgress) (busy : flush = 1) :
      Sends r flush { r with writeWait := true }
  | flushed (inProgress : r.state = .sendInProgress) :
      Sends r flush { r with state := .sendFinish }

theorem sends_sendQueryParamsOp (r : Request) (ec : ErrorCode) (flush : Int) :
    r.Sends flush (r.sendQueryParamsOp ec flush) := by
  unfold sendQueryParamsOp
  split
  · exact .ignored
  · rename_i notInProgress
    have inProgress := not_not.mp notInProgress
    split
    · exact .failed inProgress ec ‹_›
    · split
      · exact .failed inProgress _ (by simp)
      · split
        · exact .unflushed inProgress ‹_›
        · split
          · exact .flushed inProgress
          · exact .ignored

/-- The operation that sends the query only reports codes that test true. -/
theorem Sends.calls {r next : Request} {flush : Int} (sends : r.Sends flush next) :
    ∃ codes, next.calls = r.calls ++ codes ∧ (∀ code ∈ codes, code.failed = true) ∧
      next.reading = r.reading ∧ next.fetched = r.fetched := by
  cases sends with
  | failed _ ec isError => exact ⟨[ec], rfl, by simpa using isError, rfl, rfl⟩
  | ignored | unflushed | flushed => exact ⟨[], by simp, by simp, rfl, rfl⟩

/-- What `async_send_query_params_op::perform` can do. -/
theorem perform_cases (r : Request) (setNonblocking sendQueryParams flush : Int) :
    (∃ ec, ec.failed = true ∧ r.perform setNonblocking sendQueryParams flush = r.done ec) ∨
      (setNonblocking = 0 ∧ sendQueryParams ≠ 0 ∧
        r.perform setNonblocking sendQueryParams flush =
          r.sendQueryParamsOp .success flush) := by
  unfold perform
  split
  · exact .inl ⟨_, by simp, rfl⟩
  · rename_i nonblocking
    split
    · exact .inl ⟨_, by simp, rfl⟩
    · rename_i sent
      exact .inr ⟨not_not.mp nonblocking, sent, rfl⟩

/-- The default text of `async_get_result_op::done(ec)`. -/
def defaultContext : String :=
  "error while get request result"

/-- The end of the operation that fetches results. -/
def finish (r : Request) : Finish → Request
  | .ignored => { r with reading := .finished }
  | .success => { r with reading := .finished, calls := r.calls ++ [.success] }
  | .failure ec context =>
      let known := context.getD r.errorContext
      { r with
        reading := .finished
        errorContext := if known.isEmpty then defaultContext else known
        state := .error
        calls := r.calls ++ [ec] }

def advance (r : Request) : Progress → Request
  | .wait point => { r with reading := .waiting point }
  | .finish how => r.finish how

end Request

/-- The start of a request, or the completion of one of its waits. -/
inductive Event
  | start (setNonblocking sendQueryParams flush : Int) (answers : List Answer)
  | writeComplete (ec : ErrorCode) (flush : Int)
  | readComplete (ec : ErrorCode) (answers : List Answer)

/-- The operation that fetches results, run on a request. -/
def Request.getResult (process : PgResult → Option String) (r : Request)
    (point : Option ReadPoint) (ec : ErrorCode) (answers : List Answer) : Option Request :=
  (getResultOp process r.state point ec answers).map fun (fetched, progress) =>
    { r with fetched := r.fetched ++ fetched }.advance progress

/-- What an event does to a request. -/
def Request.step (process : PgResult → Option String) (r : Request) : Event → Option Request
  | .start setNonblocking sendQueryParams flush answers =>
      match r.reading with
      | .notStarted =>
          (r.perform setNonblocking sendQueryParams flush).getResult process none .success answers
      | _ => none
  | .writeComplete ec flush =>
      if r.writeWait then
        some ({ r with writeWait := false }.sendQueryParamsOp ec flush)
      else
        none
  | .readComplete ec answers =>
      match r.reading with
      | .waiting point => r.getResult process (some point) ec answers
      | _ => none

end Bozo.Impl
