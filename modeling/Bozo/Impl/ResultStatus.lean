import Bozo.Impl.AsyncRequest

/-!
# Which statuses a reported success stands for

The status of a request is that of its first result; the results behind it are
dropped.  The code of an SQL error is made from the SQLSTATE text and may be
zero.  A code that tests false therefore stands for the fetched results exactly
when neither happens.
-/

namespace Bozo.Impl

open Bozo.Transition

variable {process : PgResult → Option String}

/-- A fetched sequence of results about which a success says the truth: a fatal
error in front has a code that tests true, and behind a result that is
processed there is no error. -/
def StatusReported (process : PgResult → Option String) : List PgResult → Prop
  | [] => True
  | first :: later =>
      (first.status = .fatalError → (resultError first).failed = true) ∧
        (first.status.isOk = true → process first = none →
          ∀ res ∈ later, res.status.isOk = true)

/-- A fetched sequence of results that a code which tests false is reported
for. -/
def TestsFalse (process : PgResult → Option String) : List PgResult → Prop
  | [] => True
  | first :: _ =>
      (first.status.isOk = true ∧ process first = none) ∨
        (first.status = .fatalError ∧ (resultError first).failed = false)

/-- A code that tests false tells the truth about such a sequence. -/
theorem StatusReported.isOk {results : List PgResult} (reported : StatusReported process results)
    (testsFalse : TestsFalse process results) : ∀ res ∈ results, res.status.isOk = true := by
  cases results with
  | nil => nofun
  | cons first later =>
      rcases testsFalse with ⟨isOk, processed⟩ | ⟨fatal, testsFalse⟩
      · intro res member
        rcases List.mem_cons.mp member with rfl | behind
        · exact isOk
        · exact reported.2 isOk processed res behind
      · rw [reported.1 fatal] at testsFalse
        cases testsFalse

/-! ## The operation that fetches results -/

theorem status_of_handleResult {res : PgResult} {ec : ErrorCode} {context : Option String}
    (failure : handleResult process res = .failure ec context) (testsFalse : ec.failed = false) :
    res.status = .fatalError ∧ resultError res = ec := by
  unfold handleResult at failure
  cases status : res.status with
  | fatalError =>
      simp only [status, Finish.failure.injEq] at failure
      exact ⟨rfl, failure.1⟩
  | singleTuple | tuplesOk | commandOk =>
      cases processed : process res with
      | none => simp [status, processed] at failure
      | some what =>
          simp only [status, processed, Finish.failure.injEq] at failure
          rw [← failure.1] at testsFalse
          cases testsFalse
  | emptyQuery | badResponse | copyOut | copyIn | copyBoth | nonfatalError | pipelineSync |
    pipelineAborted | tuplesChunk | unknown =>
      simp only [status, Finish.failure.injEq] at failure
      rw [← failure.1] at testsFalse
      cases testsFalse

/-- The results that were fetched before the operation stands where it does. -/
def PointFits : Option ReadPoint → List PgResult → Prop
  | none, known | some .first, known => known = []
  | some (.drain res), known => ∃ later, known = res :: later

/-- What the operation has done is right for the results that were fetched. -/
def Progress.Truthful (process : PgResult → Option String) (fetched : List PgResult) :
    Progress → Prop
  | .wait point => PointFits (some point) fetched
  | .finish .ignored => True
  | .finish .success => TestsFalse process fetched
  | .finish (.failure ec _) => ec.failed = false → TestsFalse process fetched

theorem handleResult_truthful (res : PgResult) (later : List PgResult) :
    (Progress.finish (handleResult process res)).Truthful process (res :: later) := by
  cases how : handleResult process res with
  | ignored => trivial
  | success => exact .inl ((handleResult_eq_success_iff res).mp how)
  | failure ec context =>
      intro testsFalse
      rcases status_of_handleResult how testsFalse with ⟨status, code⟩
      exact .inr ⟨status, code ▸ testsFalse⟩

theorem drain_truthful {res : PgResult} {answers : List Answer} {fetched : List PgResult}
    {progress : Progress} (outcome : drain process res answers = some (fetched, progress))
    (later : List PgResult) : progress.Truthful process (res :: later) := by
  fun_induction drain process res answers generalizing fetched progress with
  | case1 =>
      cases outcome
      exact ⟨later, rfl⟩
  | case2 =>
      cases outcome
      exact handleResult_truthful res later
  | case3 other answers ih =>
      rcases Option.map_eq_some_iff.mp outcome with ⟨⟨more, progress⟩, drained, same⟩
      cases same
      exact ih drained
  | case4 => cases outcome

theorem awaitFirst_truthful {answers : List Answer} {fetched : List PgResult}
    {progress : Progress} (outcome : awaitFirst process answers = some (fetched, progress)) :
    progress.Truthful process fetched := by
  unfold awaitFirst at outcome
  split at outcome
  · cases outcome
    rfl
  · cases outcome
    trivial
  · split at outcome
    · rcases Option.map_eq_some_iff.mp outcome with ⟨⟨more, progress⟩, drained, same⟩
      cases same
      exact drain_truthful drained more
    · cases outcome
      exact handleResult_truthful _ []
  · cases outcome

theorem resume_truthful {point : Option ReadPoint} {answers : List Answer}
    {known fetched : List PgResult} {progress : Progress} (fits : PointFits point known)
    (outcome : resume process point answers = some (fetched, progress)) :
    progress.Truthful process (known ++ fetched) := by
  unfold resume at outcome
  split at outcome
  · obtain rfl : known = [] := fits
    exact awaitFirst_truthful outcome
  · obtain rfl : known = [] := fits
    exact awaitFirst_truthful outcome
  · cases outcome
    intro testsFalse
    cases testsFalse
  · rcases fits with ⟨later, rfl⟩
    exact drain_truthful outcome (later ++ fetched)
  · rcases fits with ⟨later, rfl⟩
    cases outcome
    exact handleResult_truthful _ _
  · cases outcome

theorem getResultOp_truthful {state : QueryState} {point : Option ReadPoint} {ec : ErrorCode}
    {answers : List Answer} {known fetched : List PgResult} {progress : Progress}
    (fits : PointFits point known)
    (outcome : getResultOp process state point ec answers = some (fetched, progress)) :
    progress.Truthful process (known ++ fetched) := by
  unfold getResultOp at outcome
  split at outcome
  · cases outcome
    trivial
  · split at outcome
    · rename_i failed
      cases outcome
      intro testsFalse
      split at testsFalse
      · cases testsFalse
      · rw [failed] at testsFalse
        cases testsFalse
    · exact resume_truthful fits outcome

/-! ## Requests -/

namespace Request

/-- Nothing that tests false is reported before the operation that fetches
results has ended, and what is reported then is right for the results. -/
structure Truthful (process : PgResult → Option String) (r : Request) : Prop where
  notStarted : r.reading = .notStarted → r.fetched = [] ∧ r.calls = [] ∧ r.writeWait = false
  waiting : ∀ point, r.reading = .waiting point → PointFits (some point) r.fetched
  silent : r.reading ≠ .finished → ∀ ec ∈ r.calls, ec.failed = true
  reported : ∀ ec ∈ r.calls, ec.failed = false → TestsFalse process r.fetched

theorem perform_calls (r : Request) (setNonblocking sendQueryParams flush : Int) :
    ∃ codes, (r.perform setNonblocking sendQueryParams flush).calls = r.calls ++ codes ∧
      (∀ code ∈ codes, code.failed = true) ∧
      (r.perform setNonblocking sendQueryParams flush).fetched = r.fetched := by
  rcases r.perform_cases setNonblocking sendQueryParams flush with
    ⟨ec, isError, failed⟩ | ⟨_, _, same⟩
  · rw [failed]
    exact ⟨[ec], rfl, by simpa using isError, rfl⟩
  · rcases (r.sends_sendQueryParamsOp .success flush).calls with ⟨codes, calls, isError, -, fetched⟩
    rw [same]
    exact ⟨codes, calls, isError, fetched⟩

theorem Truthful.getResult {r next : Request} {point : Option ReadPoint} {ec : ErrorCode}
    {answers : List Answer} (fits : PointFits point r.fetched)
    (silent : ∀ ec ∈ r.calls, ec.failed = true)
    (taken : r.getResult process point ec answers = some next) : next.Truthful process := by
  rcases Option.map_eq_some_iff.mp taken with ⟨⟨fetched, progress⟩, outcome, rfl⟩
  have right := getResultOp_truthful fits outcome
  have never : ∀ ec ∈ r.calls, ec.failed = false → TestsFalse process (r.fetched ++ fetched) := by
    intro ec member testsFalse
    rw [silent ec member] at testsFalse
    cases testsFalse
  cases progress with
  | wait point =>
      refine ⟨nofun, ?_, fun _ => silent, never⟩
      rintro _ ⟨⟩
      exact right
  | finish how =>
      cases how with
      | ignored =>
          exact ⟨nofun, nofun, fun running => absurd rfl running, never⟩
      | success =>
          exact ⟨nofun, nofun, fun running => absurd rfl running, fun _ _ _ => right⟩
      | failure code context =>
          refine ⟨nofun, nofun, fun running => absurd rfl running, ?_⟩
          intro ec member testsFalse
          rcases List.mem_append.mp member with before | here
          · exact never ec before testsFalse
          · obtain rfl := List.mem_singleton.mp here
            exact right testsFalse

theorem Truthful.writeComplete {r : Request} (truthful : r.Truthful process)
    (pending : r.writeWait = true) (ec : ErrorCode) (flush : Int) :
    ({ r with writeWait := false }.sendQueryParamsOp ec flush).Truthful process := by
  obtain ⟨codes, calls, failed, reading, fetched⟩ :=
    (sends_sendQueryParamsOp { r with writeWait := false } ec flush).calls
  constructor
  · intro notStarted
    rcases truthful.notStarted (reading.symm.trans notStarted) with ⟨_, _, idle⟩
    rw [idle] at pending
    cases pending
  · intro point waiting
    rw [fetched]
    exact truthful.waiting point (reading.symm.trans waiting)
  · intro running code member
    rw [calls] at member
    rcases List.mem_append.mp member with before | here
    · exact truthful.silent (fun finished => running (reading.trans finished)) code before
    · exact failed code here
  · intro code member testsFalse
    rw [calls] at member
    rcases List.mem_append.mp member with before | here
    · rw [fetched]
      exact truthful.reported code before testsFalse
    · rw [failed code here] at testsFalse
      cases testsFalse

theorem Truthful.step {r next : Request} {event : Event} (truthful : r.Truthful process)
    (taken : r.step process event = some next) : next.Truthful process := by
  cases event with
  | start setNonblocking sendQueryParams flush answers =>
      simp only [Request.step] at taken
      split at taken
      · rename_i notStarted
        rcases truthful.notStarted notStarted with ⟨fetched, calls, -⟩
        rcases r.perform_calls setNonblocking sendQueryParams flush with ⟨codes, sent, failed, kept⟩
        have fits : PointFits none (r.perform setNonblocking sendQueryParams flush).fetched :=
          kept.trans fetched
        refine Truthful.getResult fits ?_ taken
        rw [sent, calls]
        exact failed
      · cases taken
  | writeComplete ec flush =>
      simp only [Request.step] at taken
      split at taken
      · cases taken
        exact truthful.writeComplete ‹_› ec flush
      · cases taken
  | readComplete ec answers =>
      simp only [Request.step] at taken
      split at taken
      · rename_i point waiting
        exact Truthful.getResult (truthful.waiting point waiting)
          (truthful.silent (by rw [waiting]; exact fun finished => nomatch finished)) taken
      · cases taken

end Request

/-! ## Runs -/

theorem truthful_of_reachable {context : String} {r : Request}
    (reachable : Reachable (Request.step process) Any (Request.initial context) r) :
    r.Truthful process :=
  reachable.invariant ⟨fun _ => ⟨rfl, rfl, rfl⟩, nofun, fun _ => nofun, nofun⟩
    fun _ _ _ truthful _ taken => truthful.step taken

/-- The start of a request whose query is flushed at once. -/
theorem start_flushed (context : String) (answers : List Answer) :
    (Request.initial context).step process (.start 0 1 0 answers) =
      (awaitFirst process answers).map fun (fetched, progress) =>
        { Request.initial context with state := .sendFinish, fetched := fetched }.advance
          progress :=
  rfl

/-- The end of a request whose results were all there when it was started. -/
theorem reachable_fetched (context : String) {first : PgResult} (later : List PgResult)
    (notSingle : first.status ≠ .singleTuple) :
    ∃ r, Reachable (Request.step process) Any (Request.initial context) r ∧
      r.fetched = first :: later ∧
      ∀ how, handleResult process first = how →
        (how = .success → .success ∈ r.calls) ∧
        (∀ ec text, how = .failure ec text → ec ∈ r.calls) := by
  have taken : (Request.initial context).step process
      (.start 0 1 0 (.isBusy false :: .getResult (some first) :: drainAnswers later)) =
        some ({ Request.initial context with
          state := .sendFinish, fetched := first :: later }.finish
            (handleResult process first)) := by
    have outcome : awaitFirst process
        (.isBusy false :: .getResult (some first) :: drainAnswers later) =
          some (first :: later, .finish (handleResult process first)) := by
      have drained : drain process first (drainAnswers later) =
          some (later, .finish (handleResult process first)) :=
        drain_eq_finish_iff.mpr ⟨rfl, [], (List.append_nil _).symm⟩
      simp only [awaitFirst, notSingle, ne_eq, not_false_eq_true, if_true, drained,
        Option.map_some]
    rw [start_flushed, outcome]
    rfl
  refine ⟨_, .tail .refl trivial taken, ?_, ?_⟩
  · cases handleResult process first <;> rfl
  · rintro how rfl
    cases handleResult process first with
    | ignored => exact ⟨nofun, nofun⟩
    | success => exact ⟨fun _ => by simp [Request.finish], nofun⟩
    | failure ec text =>
        constructor
        · nofun
        · rintro _ _ ⟨⟩
          simp [Request.finish]

/-- A code that tests false is only reported for results without an error, in
every run in which these results are fetched, exactly when the first result
tells the truth about them. -/
theorem success_stands_for_results_iff (process : PgResult → Option String) (context : String)
    (results : List PgResult) (rows : ∀ res ∈ results, res.status ≠ .singleTuple) :
    (∀ r, Reachable (Request.step process) Any (Request.initial context) r →
        r.fetched = results → (∃ ec ∈ r.calls, ec.failed = false) →
          ∀ res ∈ results, res.status.isOk = true) ↔
      StatusReported process results := by
  constructor
  · intro stands
    cases results with
    | nil => trivial
    | cons first later =>
        obtain ⟨r, reachable, fetched, reported⟩ := reachable_fetched context later
          (rows first List.mem_cons_self)
        rcases reported _ rfl with ⟨onSuccess, onFailure⟩
        constructor
        · intro fatal
          by_contra testsFalse
          have called : resultError first ∈ r.calls :=
            onFailure _ none (by simp only [handleResult, fatal])
          have isOk := stands r reachable fetched
            ⟨_, called, Bool.eq_false_iff.mpr testsFalse⟩ first List.mem_cons_self
          rw [fatal] at isOk
          cases isOk
        · intro isOk processed res member
          have called := onSuccess ((handleResult_eq_success_iff first).mpr ⟨isOk, processed⟩)
          exact stands r reachable fetched ⟨_, called, rfl⟩ res (List.mem_cons_of_mem _ member)
  · rintro reported r reachable rfl ⟨ec, called, testsFalse⟩
    have right := (truthful_of_reachable reachable).reported ec called testsFalse
    exact reported.isOk right

/-- A division by zero, with its SQLSTATE `22012`. -/
def divisionByZero : List PgResult :=
  [⟨.fatalError, some [50, 50, 48, 49, 50]⟩]

theorem success_stands_for_results_divisionByZero :
    (∀ res ∈ divisionByZero, res.status ≠ .singleTuple) ∧
      ∀ r, Reachable (Request.step fun _ => none) Any (Request.initial "") r →
        r.fetched = divisionByZero → (∃ ec ∈ r.calls, ec.failed = false) →
          ∀ res ∈ divisionByZero, res.status.isOk = true := by
  have rows : ∀ res ∈ divisionByZero, res.status ≠ .singleTuple := by decide
  have reported : StatusReported (fun _ => none) divisionByZero := by
    constructor
    · decide
    · nofun
  exact ⟨rows, (success_stands_for_results_iff (fun _ => none) "" divisionByZero rows).mpr
    reported⟩

/-- An insert that is done, and the violation of a deferred foreign key that
the commit behind it finds, with its SQLSTATE `23503`. -/
def deferredViolation : List PgResult :=
  [⟨.commandOk, none⟩, ⟨.fatalError, some [50, 51, 53, 48, 51]⟩]

/-- The handler is invoked with success although the second result is an
error. -/
theorem success_deferredViolation :
    run (Request.step fun _ => none) (Request.initial "")
        [.start 0 1 0 (.isBusy false :: .getResult (some ⟨.commandOk, none⟩) ::
          drainAnswers [⟨.fatalError, some [50, 51, 53, 48, 51]⟩])] =
        some ⟨.sendFinish, [.success], "", false, .finished, deferredViolation⟩ ∧
      ¬ ∀ r, Reachable (Request.step fun _ => none) Any (Request.initial "") r →
        (∃ ec ∈ r.calls, ec.failed = false) → ∀ res ∈ r.fetched, res.status.isOk = true := by
  have succeeded : run (Request.step fun _ => none) (Request.initial "")
      [.start 0 1 0 (.isBusy false :: .getResult (some ⟨.commandOk, none⟩) ::
        drainAnswers [⟨.fatalError, some [50, 51, 53, 48, 51]⟩])] =
      some ⟨.sendFinish, [.success], "", false, .finished, deferredViolation⟩ := rfl
  constructor
  · exact succeeded
  · intro stands
    have isOk := stands _ (reachable_of_run succeeded) ⟨.success, by simp, rfl⟩
      ⟨.fatalError, some [50, 51, 53, 48, 51]⟩ (by decide)
    cases isOk

end Bozo.Impl
