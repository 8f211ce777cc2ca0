import Bozo.Impl.AsyncRequest

/-!
# Requests are answered

Neither of the two operations of a request ends without a call of the handler,
except behind a call that the other one has made.  A request that has been
started therefore waits for readability until its handler has been invoked, and
a wait that is aborted has it invoked.
-/

namespace Bozo.Impl

open Bozo.Transition

/-! ## No operation ends silently -/

section Ignored

variable {process : PgResult → Option String}

theorem handleResult_ne_ignored (res : PgResult) : handleResult process res ≠ .ignored := by
  unfold handleResult
  cases res.status <;> cases process res <;> exact Finish.noConfusion

theorem drain_ne_ignored {res : PgResult} {answers : List Answer} {fetched : List PgResult} :
    drain process res answers ≠ some (fetched, .finish .ignored) := by
  intro drained
  exact handleResult_ne_ignored res (drain_eq_finish_iff.mp drained).1

theorem awaitFirst_ne_ignored {answers : List Answer} {fetched : List PgResult} :
    awaitFirst process answers ≠ some (fetched, .finish .ignored) := by
  fun_cases awaitFirst process answers with
  | case1 =>
      intro awaited
      cases awaited
  | case2 =>
      intro awaited
      cases awaited
  | case3 res answers notSingle =>
      intro awaited
      rcases Option.map_eq_some_iff.mp awaited with ⟨⟨more, progress⟩, drained, same⟩
      cases same
      exact drain_ne_ignored drained
  | case4 res answers single =>
      intro awaited
      simp only [Option.some.injEq, Prod.mk.injEq, Progress.finish.injEq] at awaited
      exact handleResult_ne_ignored res awaited.2
  | case5 =>
      intro awaited
      cases awaited

/-- The coroutine never ends without a call. -/
theorem resume_ne_ignored {point : Option ReadPoint} {answers : List Answer}
    {fetched : List PgResult} :
    resume process point answers ≠ some (fetched, .finish .ignored) := by
  fun_cases resume process point answers with
  | case1 => exact awaitFirst_ne_ignored
  | case2 => exact awaitFirst_ne_ignored
  | case3 =>
      intro resumed
      cases resumed
  | case4 => exact drain_ne_ignored
  | case5 res answers =>
      intro resumed
      simp only [Option.some.injEq, Prod.mk.injEq, Progress.finish.injEq] at resumed
      exact handleResult_ne_ignored res resumed.2
  | case6 =>
      intro resumed
      cases resumed

end Ignored

namespace Request

variable {process : PgResult → Option String}

/-- An operation of the request only stops behind a call of the handler. -/
structure Answering (r : Request) : Prop where
  error : r.state = .error → r.calls ≠ []
  finished : r.reading = .finished → r.calls ≠ []

theorem Answering.sends {r next : Request} {flush : Int} (answering : r.Answering)
    (sends : r.Sends flush next) : next.Answering := by
  cases sends with
  | ignored => exact answering
  | failed inProgress ec isError =>
      have called : (r.done ec).calls ≠ [] := List.concat_ne_nil _ _
      exact ⟨fun _ => called, fun _ => called⟩
  | unflushed inProgress busy => exact ⟨answering.error, answering.finished⟩
  | flushed inProgress => exact ⟨QueryState.noConfusion, answering.finished⟩

theorem Answering.getResult {r next : Request} {point : Option ReadPoint} {ec : ErrorCode}
    {answers : List Answer} (answering : r.Answering)
    (taken : r.getResult process point ec answers = some next) : next.Answering := by
  rcases Option.map_eq_some_iff.mp taken with ⟨⟨fetched, progress⟩, outcome, rfl⟩
  cases progress with
  | wait point => exact ⟨answering.error, Reading.noConfusion⟩
  | finish how =>
      cases how with
      | ignored =>
          -- an operation ends without a call only behind an error
          have error : r.state = .error := by
            unfold getResultOp at outcome
            split at outcome
            · assumption
            · split at outcome
              · cases outcome
              · exact absurd outcome resume_ne_ignored
          have called := answering.error error
          exact ⟨fun _ => called, fun _ => called⟩
      | success =>
          have called : r.calls ++ [ErrorCode.success] ≠ [] := List.concat_ne_nil _ _
          exact ⟨fun _ => called, fun _ => called⟩
      | failure code context =>
          have called : r.calls ++ [code] ≠ [] := List.concat_ne_nil _ _
          exact ⟨fun _ => called, fun _ => called⟩

theorem Answering.step {r next : Request} {event : Event} (answering : r.Answering)
    (taken : r.step process event = some next) : next.Answering := by
  cases event with
  | start setNonblocking sendQueryParams flush answers =>
      simp only [Request.step] at taken
      split at taken
      · rcases r.perform_cases setNonblocking sendQueryParams flush with
          ⟨ec, -, failed⟩ | ⟨-, -, same⟩
        · rw [failed] at taken
          have called : (r.done ec).calls ≠ [] := List.concat_ne_nil _ _
          exact Answering.getResult ⟨fun _ => called, fun _ => called⟩ taken
        · rw [same] at taken
          exact (answering.sends (r.sends_sendQueryParamsOp .success flush)).getResult taken
      · cases taken
  | writeComplete ec flush =>
      simp only [Request.step] at taken
      split at taken
      · cases taken
        have idle : ({ r with writeWait := false } : Request).Answering :=
          ⟨answering.error, answering.finished⟩
        exact idle.sends (sends_sendQueryParamsOp { r with writeWait := false } ec flush)
      · cases taken
  | readComplete ec answers =>
      simp only [Request.step] at taken
      split at taken
      · exact answering.getResult taken
      · cases taken

theorem answering_of_reachable {context : String} {r : Request} {allowed : Request → Event → Prop}
    (reachable : Reachable (Request.step process) allowed (Request.initial context) r) :
    r.Answering :=
  reachable.invariant ⟨QueryState.noConfusion, Reading.noConfusion⟩ fun _ _ _ answering _ taken =>
    answering.step taken

/-- The code that the handler is given for a wait that completes with an error. -/
def reportedError (ec : ErrorCode) : ErrorCode :=
  if ec = badDescriptor then operationAborted else ec

/-- A wait for readability that completes with an error ends the request. -/
theorem step_of_failed {r : Request} {point : ReadPoint} {ec : ErrorCode}
    (waiting : r.reading = .waiting point) (running : r.state ≠ .error) (failed : ec.failed = true)
    (answers : List Answer) :
    r.step process (.readComplete ec answers) =
      some (r.finish (.failure (reportedError ec) none)) := by
  have outcome : getResultOp process r.state (some point) ec answers =
      some ([], .finish (.failure (reportedError ec) none)) := by
    rw [getResultOp, if_neg running, if_pos failed]
    rfl
  have taken : r.step process (.readComplete ec answers) =
      r.getResult process (some point) ec answers := by
    rw [Request.step, waiting]
  rw [taken, Request.getResult, outcome]
  simp only [Option.map_some, List.append_nil]
  rfl

end Request

/-- No request is lost.  In every state of every run, a request that has been
started has invoked its handler or waits for readability; and a wait that
completes with an error has the handler invoked at once, so that a request that
is cancelled is answered. -/
theorem request_never_lost (process : PgResult → Option String) (context : String) (r : Request)
    (reachable : Reachable (Request.step process) Any (Request.initial context) r)
    (started : r.reading ≠ .notStarted) :
    (r.calls ≠ [] ∨ ∃ point, r.reading = .waiting point) ∧
      ∀ ec answers point, r.calls = [] → r.reading = .waiting point → ec.failed = true →
        ∃ next, r.step process (.readComplete ec answers) = some next ∧
          next.calls = [Request.reportedError ec] ∧
          next.reading = .finished ∧ next.errorContext.isEmpty = false := by
  have answering := Request.answering_of_reachable reachable
  constructor
  · cases reading : r.reading with
    | notStarted => exact absurd reading started
    | waiting point => exact .inr ⟨point, rfl⟩
    | finished => exact .inl (answering.finished reading)
  · intro ec answers point none waiting failed
    have running : r.state ≠ .error := fun error => answering.error error none
    refine ⟨_, Request.step_of_failed waiting running failed answers, ?_, rfl, ?_⟩
    · simp [Request.finish, none]
    · simp only [Request.finish, Option.getD_none]
      split <;> rename_i known
      · rfl
      · exact Bool.eq_false_iff.mpr known

/-- A request whose query is flushed and whose result is not there yet. -/
def awaitingFirst : Request where
  state := .sendFinish
  calls := []
  errorContext := ""
  writeWait := false
  reading := .waiting .first
  fetched := []

/-- It is answered when it is cancelled. -/
theorem request_never_lost_awaitingFirst :
    awaitingFirst.reading ≠ .notStarted ∧
      ∃ next, awaitingFirst.step (fun _ => none) (.readComplete operationAborted []) = some next ∧
        next.calls = [operationAborted] := by
  have taken : (Request.initial "").step (fun _ => none) (.start 0 1 0 [.isBusy true]) =
      some awaitingFirst := rfl
  have reachable : Reachable (Request.step fun _ => none) Any (Request.initial "") awaitingFirst :=
    .tail .refl trivial taken
  have answered := (request_never_lost (fun _ => none) "" awaitingFirst reachable Reading.noConfusion).2
    operationAborted [] .first rfl rfl rfl
  rcases answered with ⟨next, taken, calls, -⟩
  exact ⟨Reading.noConfusion, next, taken, calls⟩

end Bozo.Impl
