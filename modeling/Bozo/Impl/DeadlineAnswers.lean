import Bozo.Impl.DeadlineBound
import Bozo.Impl.DeadlineWaits
import Bozo.Impl.HandlerCalls
import Bozo.Impl.RequestAnswers

/-!
# Answers under a deadline

A request and a connection attempt under a deadline.  What the bound rests on is
shown for each: a code is reported at most once, no wait but the completed one is
taken away, and nothing is pending only behind a call of the handler.
-/

namespace Bozo.Impl

open Bozo.Io
open Bozo.Transition

/-! ## Requests -/

section Requests

variable {process : PgResult → Option String}

theorem Request.calls_getResult {r next : Request} {point : Option ReadPoint} {ec : ErrorCode}
    {answers : List Answer} (taken : r.getResult process point ec answers = some next) :
    r.calls <+: next.calls := by
  rcases Option.map_eq_some_iff.mp taken with ⟨⟨fetched, progress⟩, -, rfl⟩
  cases progress with
  | wait point => exact List.prefix_rfl
  | finish how =>
      cases how with
      | ignored => exact List.prefix_rfl
      | success => exact List.prefix_append _ _
      | failure code context => exact List.prefix_append _ _

/-- What `Request.resume` does to a request, as an event. -/
def RequestAnswers.event (ec : ErrorCode) : RequestAnswers → Event
  | .flush result => .writeComplete ec result
  | .results answers => .readComplete ec answers

theorem Request.resume_eq_some {r next : Request} {direction : Direction} {ec : ErrorCode}
    {answers : RequestAnswers} (resumed : r.resume process direction ec answers = some next) :
    r.step process (answers.event ec) = some next := by
  cases direction with
  | write =>
      cases answers with
      | flush result => exact resumed
      | results answers => cases resumed
  | read =>
      cases answers with
      | flush result => cases resumed
      | results answers => exact resumed

theorem requestOp_extends : Timed.Extends (requestOp process) := by
  intro r direction ec answers next resumed
  have taken := Request.resume_eq_some resumed
  cases answers with
  | flush result =>
      simp only [RequestAnswers.event, Request.step] at taken
      split at taken
      · cases taken
        rcases (Request.sends_sendQueryParamsOp { r with writeWait := false } ec result).calls with
          ⟨codes, calls, -⟩
        exact ⟨codes, calls.symm⟩
      · cases taken
  | results answers =>
      simp only [RequestAnswers.event, Request.step] at taken
      split at taken
      · exact Request.calls_getResult taken
      · cases taken

/-- What is kept of a request that has been started, as long as a success is
only reported when no wait for writability is pending. -/
structure Request.Accountable (r : Request) : Prop where
  started : r.reading ≠ .notStarted
  settled : r.Settled
  answering : r.Answering

theorem Request.reading_getResult {r next : Request} {point : Option ReadPoint} {ec : ErrorCode}
    {answers : List Answer} (taken : r.getResult process point ec answers = some next) :
    next.reading ≠ .notStarted := by
  rcases Option.map_eq_some_iff.mp taken with ⟨⟨fetched, progress⟩, -, rfl⟩
  exact Request.advance_reading_ne _ _

theorem Request.Accountable.step {r next : Request} {event : Event} (accountable : r.Accountable)
    (flushed : FlushedSuccess process r event) (taken : r.step process event = some next) :
    next.Accountable where
  started := by
    cases event with
    | start setNonblocking sendQueryParams flush answers =>
        simp only [Request.step] at taken
        split at taken
        · exact Request.reading_getResult taken
        · cases taken
    | writeComplete ec flush =>
        simp only [Request.step] at taken
        split at taken
        · cases taken
          rcases (Request.sends_sendQueryParamsOp { r with writeWait := false } ec flush).calls
            with ⟨-, -, -, reading, -⟩
          rw [reading]
          exact accountable.started
        · cases taken
    | readComplete ec answers =>
        simp only [Request.step] at taken
        split at taken
        · exact Request.reading_getResult taken
        · cases taken
  settled := accountable.settled.step flushed taken
  answering := accountable.answering.step taken

theorem Request.Accountable.start {context : String} {start : RequestStart} {r : Request}
    (flushed : FlushedSuccess process (Request.initial context) (.start start.setNonblocking
      start.sendQueryParams start.flush start.answers))
    (taken : (Request.initial context).step process (.start start.setNonblocking
      start.sendQueryParams start.flush start.answers) = some r) : r.Accountable where
  started := Request.reading_getResult taken
  settled := Request.Settled.step (.unreported rfl fun _ => rfl) flushed taken
  answering := by
    have initial : (Request.initial context).Answering :=
      ⟨QueryState.noConfusion, Reading.noConfusion⟩
    exact initial.step taken

theorem Request.waits_le (r : Request) (direction : Direction) : r.waits direction ≤ 1 := by
  cases direction with
  | write => exact Bool.toNat_le r.writeWait
  | read =>
      rw [Request.waits]
      cases r.reading with
      | notStarted => exact Nat.zero_le 1
      | waiting point => exact Nat.le_refl 1
      | finished => exact Nat.zero_le 1

/-- A resumed request leaves the wait of the other direction as it is. -/
theorem Request.waits_resume {r next : Request} {direction : Direction} {ec : ErrorCode}
    {answers : RequestAnswers} (resumed : r.resume process direction ec answers = some next)
    (other : Direction) (differs : other ≠ direction) : next.waits other = r.waits other := by
  have taken := Request.resume_eq_some resumed
  cases direction with
  | write =>
      cases answers with
      | results answers => cases resumed
      | flush result =>
          cases other with
          | write => exact absurd rfl differs
          | read =>
              simp only [RequestAnswers.event, Request.step] at taken
              split at taken
              · cases taken
                exact (Request.waits_sendQueryParamsOp (r := { r with writeWait := false }) rfl ec
                  result).1
              · cases taken
  | read =>
      cases answers with
      | flush result => cases resumed
      | results answers =>
          cases other with
          | read => exact absurd rfl differs
          | write =>
              simp only [RequestAnswers.event, Request.step] at taken
              split at taken
              · exact (Request.waits_getResult taken).1
              · cases taken

/-- A request waits for nothing only behind a call of its handler. -/
theorem Request.Accountable.calls_ne {r : Request} (accountable : r.Accountable)
    (idle : r.waits .read = 0) : r.calls ≠ [] := by
  cases reading : r.reading with
  | notStarted => exact absurd reading accountable.started
  | waiting point =>
      rw [Request.waits, reading] at idle
      cases idle
  | finished => exact accountable.answering.finished reading

theorem requestOp_relied :
    Timed.Relied (requestOp process) Request.Accountable fun r _ ec answers =>
      FlushedSuccess process r (answers.event ec) where
  preserved accountable flushed resumed :=
    accountable.step flushed (Request.resume_eq_some resumed)
  once accountable := accountable.settled.calls_length_le
  single {r} _ := r.waits_le
  others _ resumed other differs := Nat.le_of_eq (Request.waits_resume resumed other differs).symm
  ends accountable idle := accountable.calls_ne (idle .read)

end Requests

/-! ## Connection attempts -/

section Attempts

variable {process : PgResult → Option String}

theorem Connect.calls_done {c d : Connect} (same : d.calls = c.calls) (ec : ErrorCode) :
    c.calls <+: (d.done ec).calls := by
  rw [← same]
  unfold Connect.done
  split
  · exact List.prefix_rfl
  · exact List.prefix_append _ _

theorem Connect.calls_connectOp (c : Connect) (ec : ErrorCode) (poll : Polling) :
    c.calls <+: (c.connectOp ec poll).calls := by
  unfold Connect.connectOp
  split
  · apply Connect.calls_done
    rfl
  · cases poll with
    | ok =>
        apply Connect.calls_done
        rfl
    | writing => exact List.prefix_rfl
    | reading => exact List.prefix_rfl
    | failed | active => exact Connect.calls_done rfl _

theorem Connect.calls_polled {c next : Connect} {direction : Direction} {ec : ErrorCode}
    {poll : Polling} (taken : c.step (direction.polled ec poll) = some next) :
    c.calls <+: next.calls := by
  cases direction with
  | write =>
      simp only [Direction.polled, Connect.step] at taken
      split at taken
      · cases taken
      · cases taken
        exact Connect.calls_connectOp { c with writeWaits := c.writeWaits - 1 } ec poll
  | read =>
      simp only [Direction.polled, Connect.step] at taken
      split at taken
      · cases taken
      · cases taken
        exact Connect.calls_connectOp { c with readWaits := c.readWaits - 1 } ec poll

/-- The answer to a request for oids takes the request away and has the handler
invoked. -/
theorem Connect.step_oidResponse {c next : Connect} {ec : ErrorCode} {context : String}
    {oids : List Oid} (taken : c.step (.oidResponse ec context oids) = some next) :
    c.calls <+: next.calls ∧ next.oidRequests + 1 = c.oidRequests := by
  simp only [Connect.step] at taken
  split at taken <;> rename_i pending
  · cases taken
  · cases taken
    have one : c.oidRequests - 1 + 1 = c.oidRequests := Nat.succ_pred_eq_of_ne_zero pending
    unfold Connect.oidMapOp
    split
    · exact ⟨List.prefix_append _ _, one⟩
    · split
      · exact ⟨List.prefix_append _ _, one⟩
      · exact ⟨List.prefix_append _ _, one⟩

theorem OidConnect.calls_follow {connect : Connect} {known : List ErrorCode} {oids : List Oid}
    {r : Request} {next : OidConnect} (followed : follow connect known oids r = some next) :
    connect.calls <+: next.connect.calls := by
  unfold follow at followed
  split at followed
  · cases followed
    exact List.prefix_rfl
  · rcases Option.map_eq_some_iff.mp followed with ⟨answered, taken, rfl⟩
    exact (Connect.step_oidResponse taken).1

theorem connectOp_extends : Timed.Extends (connectOp process) := by
  rintro ⟨c, request⟩ direction ec answers next resumed
  cases request with
  | some r =>
      rcases Option.bind_eq_some_iff.mp resumed with ⟨later, requested, followed⟩
      exact OidConnect.calls_follow followed
  | none =>
      rcases Option.bind_eq_some_iff.mp resumed with ⟨polled, taken, proceeded⟩
      have polledCalls : c.calls <+: polled.calls := Connect.calls_polled taken
      simp only [OidConnect.proceed] at proceeded
      split at proceeded
      · cases proceeded
        exact polledCalls
      · rcases Option.bind_eq_some_iff.mp proceeded with ⟨r, begun, followed⟩
        exact polledCalls.trans (OidConnect.calls_follow followed)

/-- The request for oids, where one is started or resumed, reports a success only
when it does not wait for writability. -/
def OidConnect.Flushed (process : PgResult → Option String) (s : OidConnect) (ec : ErrorCode)
    (answers : ConnectAnswers) : Prop :=
  match s.request with
  | none =>
      FlushedSuccess process (Request.initial s.connect.conn.errorContext)
        (.start answers.start.setNonblocking answers.start.sendQueryParams answers.start.flush
          answers.start.answers)
  | some r => FlushedSuccess process r (answers.request.event ec)

/-- What is kept of a connection attempt.  A request for oids that was started is
outstanding exactly until its handler is invoked. -/
structure OidConnect.Accountable (conn : Rep) (s : OidConnect) : Prop where
  reached : s.connect.Reached conn
  unrequested : s.request = none → s.connect.oidRequests = 0
  requested : ∀ r, s.request = some r → r.Accountable ∧
    s.connect.writeWaits + s.connect.readWaits = 0 ∧
      s.connect.oidRequests = if r.calls = [] then 1 else 0

variable {conn : Rep}

theorem OidConnect.Accountable.outstanding {s : OidConnect} (accountable : s.Accountable conn) :
    s.connect.OneOutstanding :=
  accountable.reached.sound.outstanding

/-- A request that is outstanding is followed to the next event. -/
theorem OidConnect.Accountable.follow {connect : Connect} {known : List ErrorCode}
    {oids : List Oid} {r : Request} {next : OidConnect} (reached : connect.Reached conn)
    (idle : connect.writeWaits + connect.readWaits = 0) (accountable : r.Accountable)
    (added : known <+: r.calls) (pending : connect.oidRequests = if known = [] then 1 else 0)
    (followed : OidConnect.follow connect known oids r = some next) :
    next.Accountable conn := by
  have once := accountable.settled.calls_length_le
  have same := List.prefix_iff_eq_append.mp added
  unfold OidConnect.follow at followed
  split at followed <;> rename_i fresh
  · cases followed
    rw [fresh, List.append_nil] at same
    refine ⟨reached, fun none => absurd none (Option.some_ne_none _), ?_⟩
    rintro r ⟨⟩
    rw [← same]
    exact ⟨accountable, idle, pending⟩
  · rename_i ec later
    rcases Option.map_eq_some_iff.mp followed with ⟨answered, taken, rfl⟩
    have waits := Connect.waits_oidResponse taken
    have taken' := Connect.step_oidResponse taken
    have called : r.calls ≠ [] := by
      rw [← same, fresh]
      exact List.append_ne_nil_of_right_ne_nil _ (List.cons_ne_nil _ _)
    refine ⟨reached.step taken, fun none => absurd none (Option.some_ne_none _), ?_⟩
    rintro r ⟨⟩
    refine ⟨accountable, ?_, ?_⟩
    · have write : answered.writeWaits = connect.writeWaits := waits .write
      have read : answered.readWaits = connect.readWaits := waits .read
      rw [← idle, ← write, ← read]
    · rw [if_neg called]
      show answered.oidRequests = 0
      -- an attempt has at most one request outstanding
      have outstanding := reached.sound.outstanding
      unfold Connect.OneOutstanding at outstanding
      omega

theorem OidConnect.Accountable.resume {s next : OidConnect} {direction : Direction}
    {ec : ErrorCode} {answers : ConnectAnswers} (accountable : s.Accountable conn)
    (flushed : s.Flushed process ec answers)
    (resumed : s.resume process direction ec answers = some next) : next.Accountable conn := by
  rcases s with ⟨c, request⟩
  cases request with
  | some r =>
      rcases Option.bind_eq_some_iff.mp resumed with ⟨later, requested, followed⟩
      rcases accountable.requested r rfl with ⟨here, idle, pending⟩
      have kept : later.Accountable := here.step flushed (Request.resume_eq_some requested)
      exact .follow accountable.reached idle kept (requestOp_extends _ _ _ _ _ requested) pending
        followed
  | none =>
      rcases Option.bind_eq_some_iff.mp resumed with ⟨polled, taken, proceeded⟩
      have reached : polled.Reached conn := accountable.reached.step taken
      have unrequested : c.oidRequests = 0 := accountable.unrequested rfl
      simp only [OidConnect.proceed] at proceeded
      split at proceeded <;> rename_i same
      · cases proceeded
        exact ⟨reached, fun _ => same.trans unrequested,
          fun _ none => absurd none.symm (Option.some_ne_none _)⟩
      · rcases Option.bind_eq_some_iff.mp proceeded with ⟨r, begun, followed⟩
        have outstanding := reached.sound.outstanding
        unfold Connect.OneOutstanding at outstanding
        have started : r.Accountable := Request.Accountable.start flushed begun
        refine .follow reached (by omega) started (List.nil_prefix) ?_ followed
        rw [if_pos rfl]
        omega

/-- An attempt that has been performed. -/
theorem OidConnect.Accountable.perform {start : Option ConnStatus}
    {assign : ErrorCode} {c : Connect}
    (performed : (Connect.initial conn).step (.perform start assign) = some c) :
    OidConnect.Accountable conn ⟨c, none⟩ := by
  refine ⟨Connect.Reached.perform performed, fun _ => ?_,
    fun _ none => absurd none.symm (Option.some_ne_none _)⟩
  cases performed
  show (Connect.perform { Connect.initial conn with started := true } start assign).oidRequests = 0
  unfold Connect.perform
  split
  · exact Connect.oidRequests_done_of_failed (by simp)
  · split
    · exact Connect.oidRequests_done_of_failed (by simp)
    · split <;> rename_i failed
      · exact Connect.oidRequests_done_of_failed failed
      · rfl

theorem OidConnect.Accountable.waits_le {s : OidConnect} (accountable : s.Accountable conn)
    (direction : Direction) : s.waits direction ≤ 1 := by
  rcases s with ⟨c, request⟩
  have outstanding : c.OneOutstanding := accountable.outstanding
  unfold Connect.OneOutstanding at outstanding
  cases request with
  | none =>
      show c.waits direction + 0 ≤ 1
      cases direction with
      | write => simp only [Connect.waits]; omega
      | read => simp only [Connect.waits]; omega
  | some r =>
      have idle : c.writeWaits + c.readWaits = 0 := (accountable.requested r rfl).2.1
      have single := r.waits_le direction
      show c.waits direction + r.waits direction ≤ 1
      cases direction with
      | write => simp only [Connect.waits]; omega
      | read => simp only [Connect.waits]; omega

/-- A resumed attempt takes no wait of the other direction away. -/
theorem OidConnect.Accountable.others {s next : OidConnect} {direction : Direction}
    {ec : ErrorCode} {answers : ConnectAnswers} (accountable : s.Accountable conn)
    (resumed : s.resume process direction ec answers = some next) (other : Direction)
    (differs : other ≠ direction) : s.waits other ≤ next.waits other := by
  rcases s with ⟨c, request⟩
  cases request with
  | some r =>
      rcases Option.bind_eq_some_iff.mp resumed with ⟨later, requested, followed⟩
      rw [OidConnect.waits_follow followed, Request.waits_resume requested other differs]
      exact Nat.le_refl _
  | none =>
      rcases Option.bind_eq_some_iff.mp resumed with ⟨polled, taken, proceeded⟩
      have outstanding : c.OneOutstanding := accountable.outstanding
      unfold Connect.OneOutstanding at outstanding
      -- the wait that completed was the only one
      have none : c.waits other = 0 := by
        cases direction with
        | write =>
            cases other with
            | write => exact absurd rfl differs
            | read =>
                simp only [Direction.polled, Connect.step] at taken
                split at taken
                · cases taken
                · show c.readWaits = 0
                  omega
        | read =>
            cases other with
            | read => exact absurd rfl differs
            | write =>
                simp only [Direction.polled, Connect.step] at taken
                split at taken
                · cases taken
                · show c.writeWaits = 0
                  omega
      show c.waits other + 0 ≤ next.waits other
      rw [none]
      exact Nat.zero_le _

/-- An attempt waits for nothing only behind a call of its handler. -/
theorem OidConnect.Accountable.calls_ne {s : OidConnect} (accountable : s.Accountable conn)
    (idle : ∀ direction, s.waits direction = 0) : s.connect.calls ≠ [] := by
  rcases s with ⟨c, request⟩
  have outstanding : c.OneOutstanding := accountable.outstanding
  unfold Connect.OneOutstanding at outstanding
  have write := idle .write
  have read := idle .read
  have none : c.writeWaits + c.readWaits = 0 ∧ c.oidRequests = 0 := by
    cases request with
    | none =>
        have unrequested : c.oidRequests = 0 := accountable.unrequested rfl
        simp only [OidConnect.waits, Connect.waits, Option.elim_none] at write read
        omega
    | some r =>
        rcases accountable.requested r rfl with ⟨here, noWait, pending⟩
        simp only [OidConnect.waits, Option.elim_some] at read
        have called := here.calls_ne (by omega)
        rw [if_neg called] at pending
        exact ⟨noWait, pending⟩
  intro noCall
  have length : c.calls.length = 0 := congrArg List.length noCall
  omega

theorem connectOp_relied :
    Timed.Relied (connectOp process) (OidConnect.Accountable conn) fun s _ ec answers =>
      s.Flushed process ec answers where
  preserved accountable flushed resumed := accountable.resume flushed resumed
  once {s} accountable := by
    have outstanding : s.connect.OneOutstanding := accountable.outstanding
    unfold Connect.OneOutstanding at outstanding
    have called : s.connect.calls = [] ∨ s.connect.calls.length = 1 := by
      rcases outstanding with ⟨-, -, none⟩ | ⟨-, -, none⟩ | ⟨-, -, one⟩
      · exact .inl none
      · exact .inl none
      · exact .inr one
    show s.connect.calls.length ≤ 1
    rcases called with none | one
    · rw [none]
      exact Nat.zero_le 1
    · exact Nat.le_of_eq one
  single accountable := accountable.waits_le
  others accountable resumed := accountable.others resumed
  ends accountable idle := accountable.calls_ne idle

end Attempts

/-! ## Runs under a deadline -/

/-- A request that does not wait for writability is flushed. -/
theorem Timed.saneDelivery_of_not_writeWait {process : PgResult → Option String}
    {t : Timed Request} (idle : t.op.writeWait = false) (event : TimedEvent RequestAnswers) :
    Timed.SaneDelivery (fun r _ ec (answers : RequestAnswers) =>
      FlushedSuccess process r (answers.event ec)) t event := by
  intro direction answers ec _ _
  cases answers with
  | flush result => exact trivial
  | results answers => exact fun pending => absurd (idle.symm.trans pending) Bool.false_ne_true

/-- A request for oids that would not be flushed at once, and has no result yet. -/
theorem Timed.saneDelivery_stillPolling {process : PgResult → Option String}
    {t : Timed OidConnect} (none : t.op.request = none) (direction : Direction) :
    Timed.SaneDelivery (fun s _ ec answers => s.Flushed process ec answers) t
      (.deliver direction stillPolling) := by
  rintro direction answers ec ⟨⟩ -
  simp only [OidConnect.Flushed, none]
  exact fun _ _ unflushed => absurd unflushed (by decide)

end Bozo.Impl
