import Bozo.Impl.ConnectSteps
import Bozo.Impl.Deadline

/-!
# Waits behind the deadline

A request and a connection attempt under a deadline.  After the timer's handler
has cancelled the stream, a completion that was already queued with success
resumes the operation, and the operation may wait again; nothing cancels that
wait.  No wait is started behind the deadline exactly as long as no such
completion finds that libpq needs one.
-/

namespace Bozo.Impl

open Bozo.Io
open Bozo.Transition

variable (process : PgResult → Option String)

/-! ## Requests -/

/-- What libpq answers while a request is resumed: `PQflush`, or the answers on
the way to results. -/
inductive RequestAnswers
  | flush (result : Int)
  | results (answers : List Answer)

/-- The pending waits of a request. -/
def Request.waits (r : Request) : Direction → Nat
  | .write => r.writeWait.toNat
  | .read =>
      match r.reading with
      | .waiting _ => 1
      | _ => 0

/-- The completion of a wait of a request. -/
def Request.resume (r : Request) : Direction → ErrorCode → RequestAnswers → Option Request
  | .write, ec, .flush result => r.step process (.writeComplete ec result)
  | .read, ec, .results answers => r.step process (.readComplete ec answers)
  | _, _, _ => none

/-- A request as an operation under a deadline. -/
def requestOp : WaitingOp Request RequestAnswers where
  waits := Request.waits
  resume := Request.resume process
  calls := Request.calls

/-- When the completion of a wait makes a request wait again. -/
def Request.Asks (r : Request) : Direction → ErrorCode → RequestAnswers → Prop
  | .write, ec, .flush result =>
      r.state = .sendInProgress ∧ ec.failed = false ∧ result = 1
  | .read, ec, .results answers =>
      r.state ≠ .error ∧ ec.failed = false ∧
        ∃ point, r.reading = .waiting point ∧ StillBusy (some point) answers
  | _, _, _ => False

section Busy

variable {process}

/-- The operation that fetches results waits for readability exactly when
`PQisBusy` makes it, and leaves the other operation's wait alone. -/
theorem Request.waits_getResult {r next : Request} {point : Option ReadPoint} {ec : ErrorCode}
    {answers : List Answer} (taken : r.getResult process point ec answers = some next) :
    next.waits .write = r.waits .write ∧ next.waits .read ≤ 1 ∧
      (next.waits .read = 1 ↔ r.state ≠ .error ∧ ec.failed = false ∧ StillBusy point answers) := by
  rcases Option.map_eq_some_iff.mp taken with ⟨⟨fetched, progress⟩, outcome, rfl⟩
  have waits : (∃ point, progress = .wait point) ↔
      r.state ≠ .error ∧ ec.failed = false ∧ StillBusy point answers := by
    unfold getResultOp at outcome
    split at outcome <;> rename_i state
    · cases outcome
      exact iff_of_false nofun fun asked => asked.1 state
    · split at outcome <;> rename_i failed
      · cases outcome
        apply iff_of_false nofun
        intro asked
        rw [failed] at asked
        cases asked.2.1
      · have succeeded := Bool.eq_false_iff.mpr failed
        simp only [ne_eq, state, not_false_eq_true, succeeded, true_and]
        exact resume_waits_iff outcome
  rw [← waits]
  cases progress with
  | wait point => exact ⟨rfl, Nat.le_refl 1, iff_of_true rfl ⟨point, rfl⟩⟩
  | finish how =>
      cases how with
      | ignored | success | failure =>
          exact ⟨rfl, Nat.zero_le 1, iff_of_false Nat.zero_ne_one nofun⟩

/-- The operation that sends the query waits for writability exactly when
`PQflush` makes it, and leaves the other operation's wait alone. -/
theorem Request.waits_sendQueryParamsOp {r : Request} (noWait : r.writeWait = false)
    (ec : ErrorCode) (flush : Int) :
    (r.sendQueryParamsOp ec flush).waits .read = r.waits .read ∧
      (r.sendQueryParamsOp ec flush).waits .write =
        if r.state = .sendInProgress ∧ ec.failed = false ∧ flush = 1 then 1 else 0 := by
  have none : r.writeWait.toNat = 0 := by rw [noWait, Bool.toNat_false]
  unfold Request.sendQueryParamsOp
  by_cases state : r.state = .sendInProgress
  · by_cases failed : ec.failed = true
    · simp [state, failed, Request.waits, Request.done, none]
    · by_cases error : flush = -1
      · simp [state, failed, error, Request.waits, Request.done, none]
      · by_cases busy : flush = 1
        · simp [state, failed, busy, Request.waits]
        · by_cases flushed : flush = 0
          · simp [state, failed, flushed, Request.waits, none]
          · simp [state, failed, error, busy, flushed, Request.waits, none]
  · simp [state, Request.waits, none]

/-- When a request waits again is decided by its state, the code and the
answers. -/
theorem requestOp_decides :
    Timed.Decides (requestOp process) fun r direction ec answers =>
      r.Asks direction ec answers := by
  intro r direction ec answers next resumed
  cases direction with
  | write =>
      cases answers with
      | results answers => cases resumed
      | flush result =>
          simp only [requestOp, Request.resume, Request.step] at resumed
          split at resumed <;> rename_i pending
          · cases resumed
            rcases Request.waits_sendQueryParamsOp (r := { r with writeWait := false }) rfl ec
              result with ⟨sameRead, write⟩
            have sameRead : (Request.sendQueryParamsOp { r with writeWait := false } ec result).waits
                .read = r.waits .read := sameRead
            have one : r.waits .write = 1 := by rw [Request.waits, pending, Bool.toNat_true]
            simp only [Timed.started, requestOp, sameRead, write, one, Request.Asks]
            split <;> rename_i asked
            · exact iff_of_true (by omega) asked
            · exact iff_of_false (by omega) asked
          · cases resumed
  | read =>
      cases answers with
      | flush result => cases resumed
      | results answers =>
          simp only [requestOp, Request.resume, Request.step] at resumed
          split at resumed
          · rename_i point waiting
            rcases Request.waits_getResult resumed with ⟨sameWrite, atMostOne, asked⟩
            have one : r.waits .read = 1 := by rw [Request.waits, waiting]
            have here : (∃ other, r.reading = .waiting other ∧ StillBusy (some other) answers) ↔
                StillBusy (some point) answers := by
              rw [waiting]
              constructor
              · rintro ⟨other, same, busy⟩
                cases same
                exact busy
              · intro busy
                exact ⟨point, rfl, busy⟩
            simp only [Timed.started, requestOp, Request.Asks, here, ← asked, sameWrite, one]
            omega
          · cases resumed

end Busy

/-! ## Connection attempts -/

/-- What libpq answers to the start of a request. -/
structure RequestStart where
  setNonblocking : Int
  sendQueryParams : Int
  flush : Int
  answers : List Answer

/-- What is answered while a connection attempt is resumed: `PQconnectPoll`; the
start of the request for oids, where it comes to that, or the answers to that
request; and the oids of its result. -/
structure ConnectAnswers where
  poll : Polling
  start : RequestStart
  request : RequestAnswers
  oids : List Oid

/-- A connection attempt and the request for oids that it has started. -/
structure OidConnect where
  connect : Connect
  request : Option Request

def Connect.waits (c : Connect) : Direction → Nat
  | .write => c.writeWaits
  | .read => c.readWaits

/-- The completion of the connection's own wait. -/
def Direction.polled (ec : ErrorCode) (poll : Polling) : Direction → ConnectEvent
  | .write => .writeComplete ec poll
  | .read => .readComplete ec poll

namespace OidConnect

def waits (s : OidConnect) (direction : Direction) : Nat :=
  s.connect.waits direction + s.request.elim 0 fun r => r.waits direction

/-- A request for oids after an event; the first call of its handler answers the
attempt. -/
def follow (connect : Connect) (known : List ErrorCode) (oids : List Oid) (r : Request) :
    Option OidConnect :=
  match r.calls.drop known.length with
  | [] => some ⟨connect, some r⟩
  | ec :: _ =>
      (connect.step (.oidResponse ec r.errorContext oids)).map fun answered => ⟨answered, some r⟩

/-- The request for oids is started at once when the attempt asks for it. -/
def proceed (before : Connect) (answers : ConnectAnswers) (connect : Connect) :
    Option OidConnect :=
  if connect.oidRequests = before.oidRequests then
    some ⟨connect, none⟩
  else
    ((Request.initial connect.conn.errorContext).step process (.start answers.start.setNonblocking
      answers.start.sendQueryParams answers.start.flush answers.start.answers)).bind
        (follow connect [] answers.oids)

/-- The completion of a wait of the attempt or of its request. -/
def resume (s : OidConnect) (direction : Direction) (ec : ErrorCode) (answers : ConnectAnswers) :
    Option OidConnect :=
  match s.request with
  | none =>
      (s.connect.step (direction.polled ec answers.poll)).bind (proceed process s.connect answers)
  | some r =>
      (r.resume process direction ec answers.request).bind (follow s.connect r.calls answers.oids)

end OidConnect

/-- A connection attempt as an operation under a deadline. -/
def connectOp : WaitingOp OidConnect ConnectAnswers where
  waits := OidConnect.waits
  resume := OidConnect.resume process
  calls s := s.connect.calls

/-- When the start of a request waits. -/
def RequestStart.Asks (start : RequestStart) : Prop :=
  start.setNonblocking = 0 ∧ start.sendQueryParams ≠ 0 ∧ start.flush ≠ -1 ∧
    (start.flush = 1 ∨ FirstBusy start.answers)

/-- When the completion of a wait makes a connection attempt, or its request for
oids, wait again. -/
def OidConnect.Asks (s : OidConnect) (direction : Direction) (ec : ErrorCode)
    (answers : ConnectAnswers) : Prop :=
  match s.request with
  | none =>
      ec.failed = false ∧ (answers.poll = .writing ∨ answers.poll = .reading ∨
        (answers.poll = .ok ∧ s.connect.conn.oidMap ≠ [] ∧ answers.start.Asks))
  | some r => r.Asks direction ec answers.request

section Attempts

variable {process}

theorem Connect.waits_done (c : Connect) (ec : ErrorCode) (direction : Direction) :
    (c.done ec).waits direction = c.waits direction := by
  unfold Connect.done
  split
  · cases direction <;> rfl
  · cases direction <;> rfl

theorem Connect.oidRequests_done_of_failed {c : Connect} {ec : ErrorCode}
    (failed : ec.failed = true) : (c.done ec).oidRequests = c.oidRequests := by
  unfold Connect.done
  rw [if_neg]
  rintro ⟨-, succeeds⟩
  rw [failed] at succeeds
  cases succeeds

/-- The answer to a request for oids starts no wait. -/
theorem Connect.waits_oidResponse {c next : Connect} {ec : ErrorCode} {context : String}
    {oids : List Oid} (taken : c.step (.oidResponse ec context oids) = some next)
    (direction : Direction) : next.waits direction = c.waits direction := by
  simp only [Connect.step] at taken
  split at taken
  · cases taken
  · cases taken
    unfold Connect.oidMapOp
    split
    · cases direction <;> rfl
    · split
      · cases direction <;> rfl
      · cases direction <;> rfl

theorem OidConnect.waits_follow {connect : Connect} {known : List ErrorCode} {oids : List Oid}
    {r : Request} {next : OidConnect} (followed : follow connect known oids r = some next)
    (direction : Direction) : next.waits direction = connect.waits direction + r.waits direction := by
  unfold follow at followed
  split at followed
  · cases followed
    rfl
  · rcases Option.map_eq_some_iff.mp followed with ⟨answered, taken, rfl⟩
    rw [OidConnect.waits, Connect.waits_oidResponse taken]
    rfl

/-- The query is sent exactly when nothing fails up to the first `PQflush`. -/
theorem Request.perform_initial (context : String)
    (setNonblocking sendQueryParams flush : Int) :
    (((Request.initial context).perform setNonblocking sendQueryParams flush).state ≠ .error ↔
        setNonblocking = 0 ∧ sendQueryParams ≠ 0 ∧ flush ≠ -1) ∧
      (((Request.initial context).perform setNonblocking sendQueryParams flush).waits .write ≠ 0 ↔
        setNonblocking = 0 ∧ sendQueryParams ≠ 0 ∧ flush = 1) := by
  unfold Request.perform
  by_cases nonblocking : setNonblocking = 0
  · by_cases sent : sendQueryParams = 0
    · simp [nonblocking, sent, Request.done, Request.waits, Request.initial]
    · rcases Request.waits_sendQueryParamsOp (r := Request.initial context) rfl .success flush with
        ⟨-, write⟩
      have inProgress : (Request.initial context).state = .sendInProgress ∧
          ErrorCode.success.failed = false := ⟨rfl, rfl⟩
      simp only [nonblocking, sent, ne_eq, not_true_eq_false, not_false_eq_true, if_false,
        true_and, write, inProgress]
      constructor
      · unfold Request.sendQueryParamsOp
        by_cases error : flush = -1
        · simp [error, Request.initial, Request.done, ErrorCode.failed, ErrorCode.success]
        · by_cases busy : flush = 1
          · simp [busy, Request.initial, ErrorCode.failed, ErrorCode.success]
          · by_cases flushed : flush = 0
            · simp [flushed, Request.initial, ErrorCode.failed, ErrorCode.success]
            · simp [error, busy, flushed, Request.initial, ErrorCode.failed, ErrorCode.success]
      · split <;> simp_all
  · simp [nonblocking, Request.done, Request.waits, Request.initial]

/-- The start of a request waits exactly when libpq makes it. -/
theorem Request.waits_start {context : String} {start : RequestStart} {r : Request}
    (taken : (Request.initial context).step process (.start start.setNonblocking
      start.sendQueryParams start.flush start.answers) = some r) :
    r.waits .write + r.waits .read ≠ 0 ↔ start.Asks := by
  rcases Request.perform_initial context start.setNonblocking start.sendQueryParams
    start.flush with ⟨sends, writes⟩
  rcases Request.waits_getResult taken with ⟨sameWrite, atMostOne, asked⟩
  have reads : r.waits .read ≠ 0 ↔ (start.setNonblocking = 0 ∧ start.sendQueryParams ≠ 0 ∧
      start.flush ≠ -1) ∧ FirstBusy start.answers := by
    rw [← sends]
    constructor
    · intro some
      rcases asked.mp (by omega) with ⟨state, -, busy⟩
      exact ⟨state, busy⟩
    · rintro ⟨state, busy⟩
      rw [asked.mpr ⟨state, rfl, busy⟩]
      exact Nat.one_ne_zero
  rw [← sameWrite] at writes
  have either : r.waits .write + r.waits .read ≠ 0 ↔
      r.waits .write ≠ 0 ∨ r.waits .read ≠ 0 := by omega
  rw [either, writes, reads]
  unfold RequestStart.Asks
  constructor
  · rintro (⟨nonblocking, sent, busy⟩ | ⟨⟨nonblocking, sent, flushed⟩, busy⟩)
    · refine ⟨nonblocking, sent, ?_, .inl busy⟩
      rw [busy]
      decide
    · exact ⟨nonblocking, sent, flushed, .inr busy⟩
  · rintro ⟨nonblocking, sent, flushed, busy | busy⟩
    · exact .inl ⟨nonblocking, sent, busy⟩
    · exact .inr ⟨⟨nonblocking, sent, flushed⟩, busy⟩

/-- What `async_connect_op::operator()` starts: a wait, or a request for oids. -/
theorem Connect.waits_connectOp (c : Connect) (ec : ErrorCode) (poll : Polling) :
    (c.connectOp ec poll).waits .write + (c.connectOp ec poll).waits .read =
        c.waits .write + c.waits .read +
          (if ec.failed = false ∧ (poll = .writing ∨ poll = .reading) then 1 else 0) ∧
      ((c.connectOp ec poll).oidRequests ≠ c.oidRequests ↔
        ec.failed = false ∧ poll = .ok ∧ c.conn.oidMap ≠ []) := by
  unfold Connect.connectOp
  split <;> rename_i failed
  · rw [Connect.waits_done, Connect.waits_done, Connect.oidRequests_done_of_failed failed, failed]
    exact ⟨rfl, iff_of_false (fun differs => differs rfl) nofun⟩
  · have succeeded := Bool.eq_false_iff.mpr failed
    cases poll with
    | ok =>
        rw [Connect.waits_done, Connect.waits_done, if_neg (by simp)]
        refine ⟨rfl, ?_⟩
        have success : ErrorCode.success.failed = false := rfl
        simp only [Connect.done, success, and_true, succeeded, true_and]
        split <;> rename_i registered
        · exact iff_of_true (Nat.succ_ne_self _) registered
        · exact iff_of_false (fun differs => differs rfl) registered
    | writing =>
        rw [if_pos ⟨succeeded, .inl rfl⟩]
        refine ⟨?_, iff_of_false (fun differs => differs rfl) nofun⟩
        show c.writeWaits + 1 + c.readWaits = c.writeWaits + c.readWaits + 1
        omega
    | reading =>
        rw [if_pos ⟨succeeded, .inr rfl⟩]
        exact ⟨rfl, iff_of_false (fun differs => differs rfl) nofun⟩
    | failed | active =>
        rw [Connect.waits_done, Connect.waits_done, if_neg (by simp),
          Connect.oidRequests_done_of_failed rfl]
        exact ⟨rfl, iff_of_false (fun differs => differs rfl) nofun⟩

/-- The completion of a wait of the attempt takes that wait away. -/
theorem Connect.waits_polled {c next : Connect} {direction : Direction} {ec : ErrorCode}
    {poll : Polling} (taken : c.step (direction.polled ec poll) = some next) :
    next.waits .write + next.waits .read + 1 = c.waits .write + c.waits .read +
        (if ec.failed = false ∧ (poll = .writing ∨ poll = .reading) then 1 else 0) ∧
      (next.oidRequests ≠ c.oidRequests ↔
        ec.failed = false ∧ poll = .ok ∧ c.conn.oidMap ≠ []) := by
  cases direction with
  | write =>
      simp only [Direction.polled, Connect.step] at taken
      split at taken <;> rename_i pending
      · cases taken
      · cases taken
        rcases Connect.waits_connectOp { c with writeWaits := c.writeWaits - 1 } ec poll with
          ⟨total, requests⟩
        refine ⟨?_, requests⟩
        rw [total]
        show c.writeWaits - 1 + c.readWaits + _ + 1 = c.writeWaits + c.readWaits + _
        omega
  | read =>
      simp only [Direction.polled, Connect.step] at taken
      split at taken <;> rename_i pending
      · cases taken
      · cases taken
        rcases Connect.waits_connectOp { c with readWaits := c.readWaits - 1 } ec poll with
          ⟨total, requests⟩
        refine ⟨?_, requests⟩
        rw [total]
        show c.writeWaits + (c.readWaits - 1) + _ + 1 = c.writeWaits + c.readWaits + _
        omega

/-- When a connection attempt waits again is decided by its state, the code and
the answers. -/
theorem connectOp_decides :
    Timed.Decides (connectOp process) fun s direction ec answers =>
      s.Asks direction ec answers := by
  rintro ⟨c, request⟩ direction ec answers next resumed
  cases request with
  | some r =>
      rcases Option.bind_eq_some_iff.mp resumed with ⟨later, requested, followed⟩
      have asked := requestOp_decides r direction ec answers.request later requested
      have write := OidConnect.waits_follow followed .write
      have read := OidConnect.waits_follow followed .read
      simp only [Timed.started, requestOp] at asked
      simp only [Timed.started, connectOp, write, read, OidConnect.Asks]
      rw [← asked]
      simp only [OidConnect.waits, Option.elim_some]
      omega
  | none =>
      rcases Option.bind_eq_some_iff.mp resumed with ⟨polled, taken, proceeded⟩
      rcases Connect.waits_polled (c := c) taken with ⟨total, requests⟩
      simp only [OidConnect.proceed] at proceeded
      split at proceeded <;> rename_i same
      · cases proceeded
        have notOk := mt requests.mpr (not_not.mpr same)
        simp only [Timed.started, connectOp, OidConnect.waits, OidConnect.Asks, Option.elim_none,
          Nat.add_zero]
        constructor
        · intro some
          split at total
          · rename_i asked
            exact ⟨asked.1, asked.2.elim .inl fun reading => .inr (.inl reading)⟩
          · omega
        · rintro ⟨succeeded, writing | reading | ⟨ok, registered, -⟩⟩
          · rw [if_pos ⟨succeeded, .inl writing⟩] at total
            omega
          · rw [if_pos ⟨succeeded, .inr reading⟩] at total
            omega
          · exact absurd ⟨succeeded, ok, registered⟩ notOk
      · rcases Option.bind_eq_some_iff.mp proceeded with ⟨r, begun, followed⟩
        rcases requests.mp same with ⟨succeeded, ok, registered⟩
        have asked := Request.waits_start begun
        have write := OidConnect.waits_follow followed .write
        have read := OidConnect.waits_follow followed .read
        rw [if_neg (by simp [ok])] at total
        simp only [Timed.started, connectOp, write, read, OidConnect.Asks, succeeded, ok,
          registered, ne_eq, not_false_eq_true, true_and, ← asked]
        simp only [OidConnect.waits, Option.elim_none]
        constructor
        · intro some
          exact .inr (.inr (by omega))
        · rintro (writing | reading | some)
          · cases writing
          · cases reading
          · omega

end Attempts

/-! ## Runs under a deadline -/

/-- The query is flushed at once, and its result is not there yet. -/
def busyStart : RequestStart where
  setNonblocking := 0
  sendQueryParams := 1
  flush := 0
  answers := [.isBusy true]

def busyRequest : Request where
  state := .sendFinish
  calls := []
  errorContext := ""
  writeWait := false
  reading := .waiting .first
  fetched := []

/-- A connection that waits for the first poll. -/
def establishing : Connect where
  conn := ⟨some .establishing, [], ""⟩
  started := true
  writeWaits := 1
  readWaits := 0
  oidRequests := 0
  calls := []

/-- An operation under a deadline, before anything has happened. -/
def Timed.untouched {σ : Type} (op : σ) : Timed σ where
  op := op
  queued := fun _ => none
  deadline := .initial
  late := 0

/-- The answers to a poll after which the connection is to be read from. -/
def stillPolling : ConnectAnswers where
  poll := .reading
  start := busyStart
  request := .results []
  oids := []

end Bozo.Impl
