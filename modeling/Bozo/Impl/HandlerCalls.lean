import Bozo.Impl.AsyncRequest

/-!
# How often the handler is invoked

An error ends a request for both operations: it is recorded in the query state.
A success is not, so that a wait for writability that is still pending may end
the request a second time.  The handler is invoked at most once in every run in
which a success is only reported when no such wait is pending.
-/

namespace Bozo.Impl

open Bozo.Transition

variable {process : PgResult → Option String}

/-! ## Answers that end a request with success -/

/-- A result that is processed without an exception. -/
def Processed (process : PgResult → Option String) (res : PgResult) : Prop :=
  res.status.isOk = true ∧ process res = none

/-- There is no result, or the first one is processed and the others are
dropped without a wait. -/
def FirstSucceeds (process : PgResult → Option String) : List Answer → Prop
  | .isBusy false :: .getResult none :: _ => True
  | .isBusy false :: .getResult (some res) :: answers =>
      Processed process res ∧
        (res.status = .singleTuple ∨ ∃ later rest, answers = drainAnswers later ++ rest)
  | _ => False

/-- The same from where the coroutine stands.  A failure to read on while
results are dropped is not reported. -/
def Succeeds (process : PgResult → Option String) : Option ReadPoint → List Answer → Prop
  | none, answers => FirstSucceeds process answers
  | some .first, .consumeInput true :: answers => FirstSucceeds process answers
  | some (.drain res), .consumeInput true :: answers =>
      Processed process res ∧ ∃ later rest, answers = drainAnswers later ++ rest
  | some (.drain res), .consumeInput false :: _ => Processed process res
  | _, _ => False

theorem drain_succeeds_iff {res : PgResult} {answers : List Answer} :
    (∃ fetched, drain process res answers = some (fetched, .finish .success)) ↔
      Processed process res ∧ ∃ later rest, answers = drainAnswers later ++ rest := by
  simp only [drain_eq_finish_iff, handleResult_eq_success_iff, exists_and_left]
  rfl

theorem awaitFirst_succeeds_iff {answers : List Answer} :
    (∃ fetched, awaitFirst process answers = some (fetched, .finish .success)) ↔
      FirstSucceeds process answers := by
  fun_cases awaitFirst process answers with
  | case1 => simp [FirstSucceeds]
  | case2 => simp [FirstSucceeds]
  | case3 res answers notSingle =>
      simp only [FirstSucceeds, notSingle, false_or, ← drain_succeeds_iff]
      constructor
      · rintro ⟨fetched, outcome⟩
        rcases Option.map_eq_some_iff.mp outcome with ⟨⟨more, progress⟩, drained, same⟩
        cases same
        exact ⟨more, drained⟩
      · rintro ⟨more, drained⟩
        exact ⟨res :: more, by rw [drained]; rfl⟩
  | case4 res answers single =>
      rw [not_not] at single
      simp [FirstSucceeds, single, Processed, handleResult_eq_success_iff]
  | case5 answers busy none some =>
      constructor
      · rintro ⟨fetched, outcome⟩
        cases outcome
      · intro succeeds
        unfold FirstSucceeds at succeeds
        split at succeeds
        · exact (none _ rfl).elim
        · exact (some _ _ rfl).elim
        · exact succeeds.elim

theorem resume_succeeds_iff {point : Option ReadPoint} {answers : List Answer} :
    (∃ fetched, resume process point answers = some (fetched, .finish .success)) ↔
      Succeeds process point answers := by
  fun_cases resume process point answers with
  | case1 => exact awaitFirst_succeeds_iff
  | case2 => exact awaitFirst_succeeds_iff
  | case3 => simp [Succeeds]
  | case4 => exact drain_succeeds_iff
  | case5 => simp [Succeeds, Processed, handleResult_eq_success_iff]
  | case6 point answers none first firstFailed drained drainedFailed =>
      constructor
      · rintro ⟨fetched, outcome⟩
        cases outcome
      · intro succeeds
        unfold Succeeds at succeeds
        split at succeeds
        · exact (none rfl).elim
        · exact (first _ rfl rfl).elim
        · exact (drained _ _ rfl rfl).elim
        · exact (drainedFailed _ _ rfl rfl).elim
        · exact succeeds.elim

theorem getResultOp_succeeds_iff {state : QueryState} {point : Option ReadPoint} {ec : ErrorCode}
    {answers : List Answer} :
    (∃ fetched, getResultOp process state point ec answers =
        some (fetched, .finish .success)) ↔
      state ≠ .error ∧ ec.failed = false ∧ Succeeds process point answers := by
  unfold getResultOp
  split
  · rename_i error
    simp [error]
  · rename_i running
    split
    · rename_i failed
      simp [failed]
    · rename_i succeeded
      rw [Bool.not_eq_true] at succeeded
      simp only [ne_eq, running, not_false_eq_true, succeeded, true_and]
      exact resume_succeeds_iff

/-- The answers at this event do not end the request with success while a wait
for writability is pending. -/
def FlushedSuccess (process : PgResult → Option String) (r : Request) : Event → Prop
  | .start setNonblocking sendQueryParams flush answers =>
      setNonblocking = 0 → sendQueryParams ≠ 0 → flush = 1 → ¬ Succeeds process none answers
  | .writeComplete _ _ => True
  | .readComplete ec answers =>
      r.writeWait = true → r.state ≠ .error → ec.failed = false →
        ∀ point, r.reading = .waiting point → ¬ Succeeds process (some point) answers

namespace Request

/-- The handler has not been invoked, or it has been invoked once and no event
can invoke it again. -/
inductive Settled (r : Request) : Prop
  | unreported (none : r.calls = []) (idle : r.reading = .notStarted → r.writeWait = false)
  | failed (once : r.calls.length = 1) (state : r.state = .error)
      (started : r.reading ≠ .notStarted)
  | succeeded (once : r.calls.length = 1) (reading : r.reading = .finished)
      (writeWait : r.writeWait = false)

theorem Settled.calls_length_le {r : Request} (settled : r.Settled) : r.calls.length ≤ 1 := by
  cases settled with
  | unreported none _ => simp [none]
  | failed once _ _ => exact Nat.le_of_eq once
  | succeeded once _ _ => exact Nat.le_of_eq once

/-! ## The two operations -/

theorem advance_reading_ne (r : Request) (progress : Progress) :
    (r.advance progress).reading ≠ .notStarted := by
  cases progress with
  | wait point => simp [advance]
  | finish how => cases how <;> simp [advance, finish]

/-- What the operation that fetches results does to a request that is not yet
reported. -/
theorem getResult_settled {r next : Request} {point : Option ReadPoint} {ec : ErrorCode}
    {answers : List Answer} (taken : r.getResult process point ec answers = some next)
    (none : r.calls = [])
    (flushed : r.writeWait = true →
      ¬ (r.state ≠ .error ∧ ec.failed = false ∧ Succeeds process point answers)) :
    next.Settled := by
  rcases Option.map_eq_some_iff.mp taken with ⟨⟨fetched, progress⟩, outcome, rfl⟩
  cases progress with
  | wait point => exact .unreported none fun waiting => nomatch waiting
  | finish how =>
      cases how with
      | ignored => exact .unreported none fun finished => nomatch finished
      | success =>
          refine .succeeded ?_ rfl (Bool.eq_false_iff.mpr fun pending => ?_)
          · simp [advance, finish, none]
          · exact flushed pending (getResultOp_succeeds_iff.mp ⟨fetched, outcome⟩)
      | failure code context =>
          refine .failed ?_ rfl (advance_reading_ne _ _)
          simp [advance, finish, none]

/-- After an error the operation that fetches results does nothing. -/
theorem getResult_of_error {r next : Request} {point : Option ReadPoint} {ec : ErrorCode}
    {answers : List Answer} (error : r.state = .error)
    (taken : r.getResult process point ec answers = some next) :
    next.calls = r.calls ∧ next.state = .error ∧ next.reading ≠ .notStarted := by
  simp only [getResult, getResultOp, error, if_true, Option.map_some, Option.some.injEq] at taken
  subst taken
  exact ⟨rfl, rfl, advance_reading_ne _ _⟩

/-! ## Steps and runs -/

theorem Settled.start {r next : Request} {setNonblocking sendQueryParams flush : Int}
    {answers : List Answer} (none : r.calls = []) (idle : r.writeWait = false)
    (flushed : FlushedSuccess process r (.start setNonblocking sendQueryParams flush answers))
    (taken : (r.perform setNonblocking sendQueryParams flush).getResult process .none .success
      answers = some next) : next.Settled := by
  rcases r.perform_cases setNonblocking sendQueryParams flush with
    ⟨code, _, failed⟩ | ⟨nonblocking, sent, same⟩
  · rw [failed] at taken
    rcases getResult_of_error rfl taken with ⟨calls, state, started⟩
    refine .failed ?_ state started
    simp [calls, done, none]
  · rw [same] at taken
    have sends := r.sends_sendQueryParamsOp .success flush
    generalize r.sendQueryParamsOp .success flush = sending at sends taken
    cases sends with
    | ignored =>
        apply getResult_settled taken none
        intro pending
        rw [idle] at pending
        cases pending
    | failed inProgress ec isError =>
        rcases getResult_of_error rfl taken with ⟨calls, state, started⟩
        refine .failed ?_ state started
        simp [calls, done, none]
    | unflushed inProgress busy =>
        apply getResult_settled taken none
        rintro - ⟨-, -, succeeds⟩
        exact flushed nonblocking sent busy succeeds
    | flushed inProgress =>
        apply getResult_settled taken none
        intro pending
        exact absurd (idle.symm.trans pending) Bool.false_ne_true

theorem Settled.writeComplete {r : Request} {ec : ErrorCode} {flush : Int} (settled : r.Settled)
    (waiting : r.writeWait = true) :
    ({ r with writeWait := false }.sendQueryParamsOp ec flush).Settled := by
  have sends := sends_sendQueryParamsOp { r with writeWait := false } ec flush
  generalize ({ r with writeWait := false } : Request).sendQueryParamsOp ec flush = next at sends ⊢
  cases settled with
  | unreported none idle =>
      have started : r.reading ≠ .notStarted := by
        intro notStarted
        rw [idle notStarted] at waiting
        cases waiting
      cases sends with
      | ignored => exact .unreported none fun _ => rfl
      | failed inProgress ec isError => exact .failed (by simp [done, none]) rfl started
      | unflushed inProgress busy =>
          exact .unreported none fun notStarted => absurd notStarted started
      | flushed inProgress => exact .unreported none fun _ => rfl
  | failed once state started =>
      cases sends with
      | ignored => exact .failed once state started
      | failed inProgress | unflushed inProgress | flushed inProgress =>
          have error : QueryState.error = .sendInProgress := state.symm.trans inProgress
          cases error
  | succeeded once reading writeWait =>
      rw [writeWait] at waiting
      cases waiting

theorem Settled.readComplete {r next : Request} {point : ReadPoint} {ec : ErrorCode}
    {answers : List Answer} (settled : r.Settled) (waiting : r.reading = .waiting point)
    (flushed : FlushedSuccess process r (.readComplete ec answers))
    (taken : r.getResult process (some point) ec answers = some next) : next.Settled := by
  cases settled with
  | unreported none idle =>
      apply getResult_settled taken none
      rintro pending ⟨running, succeeded, succeeds⟩
      exact flushed pending running succeeded point waiting succeeds
  | failed once state started =>
      rcases getResult_of_error state taken with ⟨calls, error, reading⟩
      exact .failed ((congrArg List.length calls).trans once) error reading
  | succeeded once reading writeWait =>
      rw [reading] at waiting
      cases waiting

theorem Settled.step {r next : Request} {event : Event} (settled : r.Settled)
    (flushed : FlushedSuccess process r event) (taken : r.step process event = some next) :
    next.Settled := by
  cases event with
  | start setNonblocking sendQueryParams flush answers =>
      simp only [Request.step] at taken
      split at taken
      · rename_i notStarted
        cases settled with
        | unreported none idle => exact Settled.start none (idle notStarted) flushed taken
        | failed once state started => exact absurd notStarted started
        | succeeded once reading writeWait =>
            rw [reading] at notStarted
            cases notStarted
      · cases taken
  | writeComplete ec flush =>
      simp only [Request.step] at taken
      split at taken
      · cases taken
        exact settled.writeComplete ‹_›
      · cases taken
  | readComplete ec answers =>
      simp only [Request.step] at taken
      split at taken
      · exact settled.readComplete ‹_› flushed taken
      · cases taken

end Request

theorem settled_of_reachable {context : String} {r : Request}
    (reachable : Reachable (Request.step process) (FlushedSuccess process)
      (Request.initial context) r) : r.Settled :=
  reachable.invariant (.unreported rfl fun _ => rfl)
    fun _ _ _ settled flushed taken => settled.step flushed taken

/-- In every run in which success is reported only when no wait for writability
is pending, the handler is invoked at most once. -/
theorem handler_invoked_at_most_once (process : PgResult → Option String) (context : String)
    (r : Request)
    (reachable : Reachable (Request.step process) (FlushedSuccess process)
      (Request.initial context) r) : r.calls.length ≤ 1 := by
  have settled := settled_of_reachable reachable
  exact settled.calls_length_le

/-- The query is flushed at once and there is no result. -/
def flushedAtOnce : Event :=
  .start 0 1 0 [.isBusy false, .getResult none]

theorem handler_invoked_at_most_once_flushedAtOnce :
    (⟨.sendFinish, [.success], "", false, .finished, []⟩ : Request).calls.length ≤ 1 := by
  apply handler_invoked_at_most_once (fun _ => none) ""
  have flushed : FlushedSuccess (fun _ => none) (Request.initial "") flushedAtOnce :=
    fun _ _ unflushed => nomatch unflushed
  exact .tail .refl flushed rfl

/-- The rest of the query is flushed by `PQconsumeInput`, so that the result is
there while the wait for writability is pending; that wait is then aborted. -/
def abortedAfterSuccess : List Event :=
  [.start 0 1 1 [.isBusy true],
    .readComplete .success [.consumeInput true, .isBusy false,
      .getResult (some ⟨.tuplesOk, none⟩), .isBusy false, .getResult none],
    .writeComplete operationAborted 0]

/-- The handler is invoked with success and then with the abort. -/
theorem handler_invoked_twice :
    run (Request.step fun _ => none) (Request.initial "") abortedAfterSuccess =
        some ⟨.error, [.success, operationAborted], "", false, .finished, [⟨.tuplesOk, none⟩]⟩ ∧
      ¬ ∀ r, Reachable (Request.step fun _ => none) Any (Request.initial "") r →
        r.calls.length ≤ 1 := by
  have twice : run (Request.step fun _ => none) (Request.initial "") abortedAfterSuccess =
      some ⟨.error, [.success, operationAborted], "", false, .finished,
        [⟨.tuplesOk, none⟩]⟩ := rfl
  constructor
  · exact twice
  · intro once
    exact absurd (once _ (reachable_of_run twice)) (by decide)

/-! ## The condition is needed -/

namespace Request

/-- A wait for writability is only pending for a query that is being sent. -/
structure Sending (r : Request) : Prop where
  notStarted : r.reading = .notStarted → r.state = .sendInProgress ∧ r.writeWait = false
  pending : r.writeWait = true → r.state ≠ .sendFinish

theorem Sending.sends {r next : Request} {flush : Int} (idle : r.writeWait = false)
    (sends : r.Sends flush next) : next.writeWait = true → next.state ≠ .sendFinish := by
  intro pending
  cases sends with
  | ignored | flushed =>
      have never : false = true := idle.symm.trans pending
      cases never
  | failed => simp [done]
  | unflushed inProgress => simp [inProgress]

theorem Sending.getResult {r next : Request} {point : Option ReadPoint} {ec : ErrorCode}
    {answers : List Answer} (pending : r.writeWait = true → r.state ≠ .sendFinish)
    (taken : r.getResult process point ec answers = some next) : next.Sending := by
  rcases Option.map_eq_some_iff.mp taken with ⟨⟨fetched, progress⟩, -, rfl⟩
  refine ⟨fun notStarted => absurd notStarted (advance_reading_ne _ _), ?_⟩
  cases progress with
  | wait point => exact pending
  | finish how =>
      cases how with
      | ignored => exact pending
      | success => exact pending
      | failure code context => exact fun _ => nofun

theorem Sending.step {r next : Request} {event : Event} (sending : r.Sending)
    (taken : r.step process event = some next) : next.Sending := by
  cases event with
  | start setNonblocking sendQueryParams flush answers =>
      simp only [Request.step] at taken
      split at taken
      · rename_i notStarted
        rcases sending.notStarted notStarted with ⟨-, idle⟩
        refine Sending.getResult ?_ taken
        rcases r.perform_cases setNonblocking sendQueryParams flush with
          ⟨ec, -, failed⟩ | ⟨-, -, same⟩
        · rw [failed]
          exact fun _ => nofun
        · rw [same]
          exact Sending.sends idle (r.sends_sendQueryParamsOp .success flush)
      · cases taken
  | writeComplete ec flush =>
      simp only [Request.step] at taken
      split at taken
      · rename_i pending
        cases taken
        have sends := sends_sendQueryParamsOp { r with writeWait := false } ec flush
        rcases sends.calls with ⟨-, -, -, reading, -⟩
        refine ⟨fun notStarted => ?_, Sending.sends rfl sends⟩
        have idle := (sending.notStarted (reading.symm.trans notStarted)).2
        rw [idle] at pending
        cases pending
      · cases taken
  | readComplete ec answers =>
      simp only [Request.step] at taken
      split at taken
      · exact Sending.getResult sending.pending taken
      · cases taken

/-- After a success that is reported too early, an aborted wait for writability
invokes the handler again. -/
theorem invoked_again {r next : Request} {point : Option ReadPoint} {ec : ErrorCode}
    {answers : List Answer} (taken : r.getResult process point ec answers = some next)
    (none : r.calls = []) (pending : r.writeWait = true)
    (inProgress : r.state = .sendInProgress) (succeeded : ec.failed = false)
    (succeeds : Succeeds process point answers) :
    ∃ again, next.step process (.writeComplete operationAborted 0) = some again ∧
      again.calls.length = 2 := by
  have running : r.state ≠ .error := by
    rw [inProgress]
    nofun
  rcases getResultOp_succeeds_iff.mpr ⟨running, succeeded, succeeds⟩ with ⟨fetched, outcome⟩
  rw [getResult, outcome] at taken
  cases taken
  refine ⟨_, if_pos pending, ?_⟩
  simp [advance, finish, sendQueryParamsOp, inProgress, operationAborted, ErrorCode.failed, done,
    none]

end Request

/-- Where the condition is broken for the first time, the handler may be invoked
twice. -/
theorem invoked_again_of_unflushed {context : String} {r next : Request} {event : Event}
    (reachable : Reachable (Request.step process) (FlushedSuccess process)
      (Request.initial context) r)
    (unflushed : ¬ FlushedSuccess process r event)
    (taken : r.step process event = some next) :
    ∃ again, next.step process (.writeComplete operationAborted 0) = some again ∧
      again.calls.length = 2 := by
  have settled := settled_of_reachable reachable
  have sending : r.Sending :=
    reachable.invariant ⟨fun _ => ⟨rfl, rfl⟩, nofun⟩ fun _ _ _ sending _ taken => sending.step taken
  cases event with
  | start setNonblocking sendQueryParams flush answers =>
      simp only [FlushedSuccess, not_forall, not_not] at unflushed
      rcases unflushed with ⟨nonblocking, sent, busy, succeeds⟩
      subst nonblocking busy
      simp only [Request.step] at taken
      split at taken
      · rename_i notStarted
        rcases sending.notStarted notStarted with ⟨inProgress, idle⟩
        have waits : r.perform 0 sendQueryParams 1 = { r with writeWait := true } := by
          simp [Request.perform, Request.sendQueryParamsOp, sent, inProgress, ErrorCode.failed,
            ErrorCode.success]
        rw [waits] at taken
        have none : r.calls = [] := by
          cases settled with
          | unreported none _ => exact none
          | failed _ _ started => exact absurd notStarted started
          | succeeded _ finished _ =>
              rw [finished] at notStarted
              cases notStarted
        exact Request.invoked_again taken none rfl inProgress rfl succeeds
      · cases taken
  | writeComplete ec flush => exact (unflushed trivial).elim
  | readComplete ec answers =>
      simp only [FlushedSuccess, not_forall, not_not] at unflushed
      rcases unflushed with ⟨pending, running, succeeded, point, waiting, succeeds⟩
      simp only [Request.step, waiting] at taken
      have inProgress : r.state = .sendInProgress := by
        cases state : r.state with
        | error => exact absurd state running
        | sendFinish => exact absurd state (sending.pending pending)
        | sendInProgress => rfl
      have none : r.calls = [] := by
        cases settled with
        | unreported none _ => exact none
        | failed _ error _ => exact absurd error running
        | succeeded _ _ idle => exact absurd (idle.symm.trans pending) Bool.false_ne_true
      exact Request.invoked_again taken none pending inProgress succeeded succeeds

end Bozo.Impl
