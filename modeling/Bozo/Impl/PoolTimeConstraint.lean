import Bozo.Deadline
import Bozo.Impl.ConnectionPool

/-!
# The time constraint of a request to the pool

A request to the pool waits in the queue for at most the time that its time
constraint allows.  If it is then given a handle that has to be filled, the time
constraint is passed on to the source of connections as it was given.  A time
point limits both phases together; a duration is counted anew from the moment
at which the connection attempt is started.
-/

namespace Bozo.Impl

open Bozo.Bytes
open Bozo.Bytes.Checked

/-- `connection_pool::queue_timeout`; `now` is the reading of the clock. -/
def queueTimeout (t : TimeConstraint) (now : Int) : Checked Int :=
  match t with
  | .timePoint t => timeLeft t now
  | .duration d => pure d
  | .none => pure 0

/-- What `pooled_connection_wrapper` keeps of the call. -/
structure PooledConnectionWrapper where
  timeConstrain : TimeConstraint

/-- What the pool is called with: the handler and the longest time in the
queue. -/
structure QueueRequest where
  handler : PooledConnectionWrapper
  timeout : Int

/-- `connection_pool::operator()`. -/
def connectionPool (t : TimeConstraint) (now : Int) : Checked QueueRequest :=
  QueueRequest.mk ⟨t⟩ <$> queueTimeout t now

section Timer

-- When a timer expires that is set to a duration at a reading of the clock.
variable (add : Int → Int → Int)

/-- A timer is set relative to the clock, up to its end. -/
def TimerAdds : Prop :=
  ∀ now d, 0 ≤ now → 0 ≤ d → add now d = min (now + d) int64Max

/-- `apply_time_constaint`: when the timer expires that limits an attempt which
is started at `now`. -/
def applyTimeConstaint (t : TimeConstraint) (now : Int) : Option Int :=
  match t with
  | .none => none
  | .duration d => some (add now d)
  | .timePoint t => some t

/-- `connection_info::operator()`: `async_connect` with the limit of its time. -/
def connectionInfo (t : TimeConstraint) (now : Int) : Option Int :=
  applyTimeConstaint add t now

/-- What the handle of the pool leads to. -/
inductive Continued
  | handled (ec : ErrorCode) (rep : Option Rep)
  | connecting (limit : Option Int)

/-- `pooled_connection_wrapper::operator()` at the time `now`. -/
def PooledConnectionWrapper.invoke (w : PooledConnectionWrapper) (ec : ErrorCode)
    (handle : Option Rep) (now : Int) : Continued :=
  if ec.failed then
    .handled ec none
  else
    match handle with
    | some rep =>
        if !connectionStatusBad rep.native then
          .handled ec (some rep)
        else
          .connecting (connectionInfo add w.timeConstrain now)
    | none => .connecting (connectionInfo add w.timeConstrain now)

end Timer

/-! ## The limit of the whole operation -/

/-- A time is not behind the end of a time constraint that was given at
`called`. -/
def InTime (t : TimeConstraint) (called limit : Int) : Prop :=
  match t with
  | .none => True
  | .duration d => limit ≤ called + d
  | .timePoint t => limit ≤ t

section Limit

variable {add : Int → Int → Int} {t : TimeConstraint} {called now limit : Int} {ec : ErrorCode}
  {handle : Option Rep}

/-- The attempt is limited by the time constraint as it was given, counted from
its own start. -/
theorem limit_of_connecting
    (connecting : (connectionPool t called).value.handler.invoke add ec handle now =
      .connecting (some limit)) : applyTimeConstaint add t now = some limit := by
  have kept : (connectionPool t called).value.handler = ⟨t⟩ := rfl
  rw [kept] at connecting
  unfold PooledConnectionWrapper.invoke at connecting
  split at connecting
  · cases connecting
  · split at connecting
    · split at connecting
      · cases connecting
      · exact Continued.connecting.inj connecting
    · exact Continued.connecting.inj connecting

/-- An operation that calls the pool with the deadline of its own time
constraint, as `async_request` does, is in time. -/
theorem inTime_of_deadline {after : Int} (after_nonneg : 0 ≤ after) (called_nonneg : 0 ≤ called)
    (called_le : called ≤ int64Max) (converted : (deadline (.duration after) called).value = t)
    (connecting : (connectionPool t called).value.handler.invoke add ec handle now =
      .connecting (some limit)) : InTime (.duration after) called limit := by
  have limit_eq := limit_of_connecting connecting
  rw [deadline, deadlineAfter_eq after_nonneg called_nonneg called_le] at converted
  cases converted
  cases limit_eq
  exact Int.min_le_left _ _

end Limit

/-- The limit of the attempt is in time, except for a duration of which a part
has been spent in the queue. -/
theorem connect_limit_iff (add : Int → Int → Int) (adds : TimerAdds add) (t : TimeConstraint)
    (called waited limit : Int) (ec : ErrorCode) (handle : Option Rep)
    (called_nonneg : 0 ≤ called) (waited_nonneg : 0 ≤ waited)
    (waited_le : waited ≤ (connectionPool t called).value.timeout)
    (connecting : (connectionPool t called).value.handler.invoke add ec handle (called + waited) =
      .connecting (some limit)) :
    InTime t called limit ↔
      ∀ d, t = .duration d → waited = 0 ∨ int64Max ≤ called + d := by
  have limit_eq := limit_of_connecting connecting
  cases t with
  | none => cases limit_eq
  | timePoint t =>
      cases limit_eq
      exact iff_of_true (Int.le_refl limit) nofun
  | duration d =>
      cases limit_eq
      have d_nonneg : 0 ≤ d := Int.le_trans waited_nonneg waited_le
      have expiry := adds (called + waited) d (by omega) d_nonneg
      simp only [InTime, TimeConstraint.duration.injEq, forall_eq', expiry]
      omega

/-- One second from a handle that is free at once. -/
theorem connect_limit_at_once : InTime (.duration 1000000000) 0 1000000000 :=
  (connect_limit_iff (fun now d => min (now + d) int64Max) (fun _ _ _ _ => rfl)
    (.duration 1000000000) 0 0 1000000000 .success none (by decide) (by decide) (by decide)
    rfl).mpr fun _ _ => .inl rfl

/-- One second, of which 0.6 are spent in the queue. -/
theorem connect_limit_behind :
    ∃ limit, (connectionPool (.duration 1000000000) 0).value.timeout ≥ 600000000 ∧
      (connectionPool (.duration 1000000000) 0).value.handler.invoke
        (fun now d => min (now + d) int64Max) .success none 600000000 = .connecting (some limit) ∧
      ¬ InTime (.duration 1000000000) 0 limit := by
  refine ⟨1600000000, by decide, rfl, ?_⟩
  unfold InTime
  decide

end Bozo.Impl
