import Bozo.Error
import Bozo.Transition.Runs

/-!
# Operations under a deadline

`io_deadline_handler` stands between an operation and its handler and runs a
timer beside the operation.  Whoever ends first takes note of it; the other one
invokes the handler.  When the timer is first, it cancels the waits of the
stream.  That reaches the waits that are pending at this moment: a completion
that is already queued is delivered as it is.

The operation is any machine that waits on a stream in two directions and is
resumed by the completions of its waits.
-/

namespace Bozo.Impl

open Bozo.Transition

/-- `asio::error::timed_out`. -/
def timedOut : ErrorCode :=
  ⟨110, .system⟩

inductive Direction
  | write
  | read
  deriving DecidableEq, Repr

/-- An operation of states `σ` that is resumed with answers `ι`: how many of its
waits are pending, what the completion of one does, and the codes that its
handler was invoked with. -/
structure WaitingOp (σ ι : Type) where
  waits : σ → Direction → Nat
  resume : σ → Direction → ErrorCode → ι → Option σ
  calls : σ → List ErrorCode

/-! ## The handler -/

/-- The context of an `io_deadline_handler`: whether the operation has passed
its own handle on the context on, and whether the timer's handler was first. -/
structure DeadlineHandler where
  firstCall : Int
  ec : ErrorCode
  completed : Bool
  timerPending : Bool
  fired : Bool
  calls : List ErrorCode
  deriving DecidableEq, Repr

namespace DeadlineHandler

def initial : DeadlineHandler where
  firstCall := 2
  ec := .success
  completed := false
  timerPending := true
  fired := false
  calls := []

/-- `io_deadline_handler::operator()`.  It gives its context up, so that a
second call has none. -/
def complete (h : DeadlineHandler) (ec : ErrorCode) : Option DeadlineHandler :=
  if h.completed then
    none
  else if h.firstCall - 1 ≠ 0 then
    some { h with firstCall := h.firstCall - 1, ec := ec, completed := true }
  else
    some { h with firstCall := h.firstCall - 1, completed := true, calls := h.calls ++ [h.ec] }

/-- All calls of the operation's handler, in order. -/
def completeAll (h : DeadlineHandler) : List ErrorCode → Option DeadlineHandler
  | [] => some h
  | ec :: codes => (h.complete ec).bind fun next => next.completeAll codes

/-- `timer_handler::operator()`; the wait of the timer ends once, by expiry or
cancelled. -/
def timer (h : DeadlineHandler) : DeadlineHandler :=
  if h.firstCall - 1 ≠ 0 then
    { h with firstCall := h.firstCall - 1, ec := timedOut, timerPending := false, fired := true }
  else
    { h with firstCall := h.firstCall - 1, timerPending := false, calls := h.calls ++ [h.ec] }

end DeadlineHandler

/-! ## The operation and the timer -/

/-- An operation with its deadline: the completions of waits that are queued,
and the number of waits that were started after the timer's handler had been
first. -/
structure Timed (σ : Type) where
  op : σ
  queued : Direction → Option ErrorCode
  deadline : DeadlineHandler
  late : Nat

/-- A wait completes and its handler is queued, a queued handler is run, or the
timer's handler is. -/
inductive TimedEvent (ι : Type)
  | ready (direction : Direction) (ec : ErrorCode)
  | deliver (direction : Direction) (answers : ι)
  | timer

namespace Timed

variable {σ ι : Type} (M : WaitingOp σ ι)

/-- `cancel` of the stream: the pending waits complete. -/
def cancel (op : σ) (queued : Direction → Option ErrorCode) (direction : Direction) :
    Option ErrorCode :=
  if M.waits op direction ≠ 0 ∧ queued direction = none then
    some operationAborted
  else
    queued direction

/-- The number of waits that are started when one is resumed. -/
def started (before after : σ) : Nat :=
  M.waits after .write + M.waits after .read + 1 - (M.waits before .write + M.waits before .read)

/-- The operation as its initiating function leaves it. -/
def begin (op : σ) : Option (Timed σ) :=
  (DeadlineHandler.initial.completeAll (M.calls op)).map fun deadline =>
    { op := op, queued := fun _ => none, deadline := deadline, late := 0 }

def step (t : Timed σ) : TimedEvent ι → Option (Timed σ)
  | .ready direction ec =>
      if M.waits t.op direction ≠ 0 ∧ t.queued direction = none then
        some { t with queued := Function.update t.queued direction (some ec) }
      else
        none
  | .deliver direction answers =>
      (t.queued direction).bind fun ec =>
        (M.resume t.op direction ec answers).bind fun op =>
          (t.deadline.completeAll ((M.calls op).drop (M.calls t.op).length)).map fun deadline =>
            { op := op
              queued := Function.update t.queued direction none
              deadline := deadline
              late := t.late + if t.deadline.fired then started M t.op op else 0 }
  | .timer =>
      if t.deadline.timerPending then
        let deadline := t.deadline.timer
        some { t with
          queued := if deadline.fired then cancel M t.op t.queued else t.queued
          deadline := deadline }
      else
        none

/-! ## Waits behind the deadline -/

variable {M}

/-- `asks` tells from the state, the code and the answers when a resumed
operation starts another wait. -/
def Decides (M : WaitingOp σ ι) (asks : σ → Direction → ErrorCode → ι → Prop) : Prop :=
  ∀ before direction ec answers after, M.resume before direction ec answers = some after →
    (started M before after ≠ 0 ↔ asks before direction ec answers)

/-- No completion that asks for another wait is delivered after the timer's
handler has been first. -/
def NothingAsked (asks : σ → Direction → ErrorCode → ι → Prop) (t : Timed σ)
    (event : TimedEvent ι) : Prop :=
  ∀ direction answers ec, event = .deliver direction answers → t.deadline.fired = true →
    t.queued direction = some ec → ¬ asks t.op direction ec answers

/-- The timer delivers no completion. -/
theorem nothingAsked_timer (asks : σ → Direction → ErrorCode → ι → Prop) (t : Timed σ) :
    NothingAsked asks t .timer := by
  intro direction answers ec delivered
  cases delivered

section Runs

variable {asks : σ → Direction → ErrorCode → ι → Prop} (decides : Decides M asks)

include decides

/-- What a step adds to the late waits: something exactly for a delivery that
asks for another wait after the timer's handler has been first. -/
theorem late_step_iff {t next : Timed σ} {event : TimedEvent ι}
    (taken : step M t event = some next) :
    next.late = t.late ↔ NothingAsked asks t event := by
  cases event with
  | ready direction ec =>
      simp only [step] at taken
      split at taken
      · cases taken
        exact iff_of_true rfl nofun
      · cases taken
  | deliver direction answers =>
      rcases Option.bind_eq_some_iff.mp taken with ⟨ec, queued, resumes⟩
      rcases Option.bind_eq_some_iff.mp resumes with ⟨op, resumed, completes⟩
      rcases Option.map_eq_some_iff.mp completes with ⟨deadline, -, rfl⟩
      have asked := decides t.op direction ec answers op resumed
      constructor
      · rintro same direction' answers' ec' delivered fired queuedHere asking
        cases delivered
        rw [queued] at queuedHere
        cases queuedHere
        simp only [fired, if_true] at same
        exact asked.mpr asking (by omega)
      · intro nothing
        show t.late + (if t.deadline.fired then started M t.op op else 0) = t.late
        split <;> rename_i fired
        · have none := mt asked.mp (nothing direction answers ec rfl fired queued)
          rw [not_not.mp none, Nat.add_zero]
        · rfl
  | timer =>
      simp only [step] at taken
      split at taken
      · cases taken
        exact iff_of_true rfl (nothingAsked_timer asks t)
      · cases taken

/-- In a run without such deliveries, no wait is started behind the deadline. -/
theorem late_eq_zero {op : σ} {start t : Timed σ} (begun : begin M op = some start)
    (reachable : Reachable (step M) (NothingAsked asks) start t) : t.late = 0 := by
  have initial : (fun t : Timed σ => t.late = 0) start := by
    rcases Option.map_eq_some_iff.mp begun with ⟨deadline, -, rfl⟩
    rfl
  exact reachable.invariant initial fun state event next none nothing taken =>
    ((late_step_iff decides taken).mpr nothing).trans none

end Runs

end Timed

end Bozo.Impl
