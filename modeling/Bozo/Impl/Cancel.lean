import Bozo.Impl.Deadline
import Mathlib.Data.List.DropRight
import Mathlib.Logic.Function.Basic

/-!
# Cancelling a request on the server

`PQcancel` blocks the thread of an executor of its own, and a timer limits how
long its answer is waited for.  The operation and the timer may run in two
threads.  Each one decrements an atomic counter and, if it was the first to do
so, goes on to invoke the handler; between the two the other one may take any
step.
-/

namespace Bozo.Impl

open Bozo.Transition

/-! ## The answer of the server -/

/-- `find_last_not_of` with a null character. -/
def findLastNotNul (msg : List Char) : Option Nat :=
  (msg.reverse.findIdx? (· ≠ '\x00')).map fun position => msg.length - 1 - position

/-- `dispatch_cancel`: what `PQcancel` returns, and the buffer behind it. -/
def dispatchCancel (canceled : Bool) (errbuf : List Char) : ErrorCode × List Char :=
  if canceled then
    (.success, [])
  else
    match findLastNotNul errbuf with
    | none => (Error.pqCancelFailed.code, [])
    | some pos => (Error.pqCancelFailed.code, errbuf.take (pos + 1))

theorem findLastNotNul_concat (msg : List Char) (c : Char) :
    findLastNotNul (msg ++ [c]) = if c = '\x00' then findLastNotNul msg else some msg.length := by
  simp only [findLastNotNul, List.reverse_append, List.reverse_singleton, List.singleton_append,
    List.findIdx?_cons, List.length_append, List.length_singleton, decide_eq_true_eq]
  by_cases nul : c = '\x00'
  · simp only [nul, ne_eq, not_true_eq_false, ↓reduceIte, Option.map_map]
    congr 1
    funext position
    simp only [Function.comp_apply]
    omega
  · simp [nul]

theorem lt_of_findLastNotNul {msg : List Char} {pos : Nat} (last : findLastNotNul msg = some pos) :
    pos < msg.length := by
  rcases Option.map_eq_some_iff.mp last with ⟨position, here, rfl⟩
  have within := (List.findIdx?_eq_some_iff_findIdx_eq.mp here).1
  rw [List.length_reverse] at within
  omega

/-- The message is the buffer without the null characters at its end. -/
theorem dispatchCancel_failed (errbuf : List Char) :
    dispatchCancel false errbuf =
      (Error.pqCancelFailed.code, errbuf.rdropWhile (· = '\x00')) := by
  induction errbuf using List.reverseRecOn with
  | nil => rfl
  | append_singleton msg c ih =>
      rw [List.rdropWhile_concat]
      simp only [dispatchCancel, Bool.false_eq_true, ↓reduceIte, findLastNotNul_concat,
        decide_eq_true_eq] at ih ⊢
      by_cases nul : c = '\x00'
      · rw [if_pos nul, if_pos nul]
        cases last : findLastNotNul msg with
        | none =>
            rw [last] at ih
            exact ih
        | some pos =>
            rw [last] at ih
            have within := lt_of_findLastNotNul last
            simp only [List.take_append_of_le_length (Nat.succ_le_of_lt within)]
            exact ih
      · have whole : (msg ++ [c]).take (msg.length + 1) = msg ++ [c] :=
          List.take_of_length_le (by simp)
        rw [if_neg nul, if_neg nul]
        simp only [whole]

/-! ## The wait for it -/

/-- Who may invoke the handler: `deadline_cancel_handler::operator()` or
`on_timer_expired::operator()`. -/
inductive Party
  | operation
  | timer
  deriving DecidableEq, Repr

def Party.other : Party → Party
  | .operation => .timer
  | .timer => .operation

theorem Party.other_ne (party : Party) : party.other ≠ party := by
  cases party <;> simp [Party.other]

theorem Party.other_other (party : Party) : party.other.other = party := by
  cases party <;> rfl

theorem Party.eq_or_eq_other (party first : Party) : party = first ∨ party = first.other := by
  cases party <;> cases first <;> simp [Party.other]

/-- How far a call is.  The decremented counter is not zero for the first. -/
inductive CallProgress
  | uncalled
  | counted (first : Bool)
  | ended
  deriving DecidableEq, Repr

/-- The context of a `deadline_cancel_handler`, the answer of `PQcancel`, and
the invocations of the handler. -/
structure CancelWait where
  state : Int
  answer : Option (Bool × List Char)
  progress : Party → CallProgress
  calls : List (ErrorCode × List Char)

inductive CancelEvent
  | returned (canceled : Bool) (errbuf : List Char)
  | counts (party : Party)
  | proceeds (party : Party)

namespace CancelWait

def initial : CancelWait where
  state := 2
  answer := none
  progress := fun _ => .uncalled
  calls := []

/-- What the handler is invoked with. -/
def report (c : CancelWait) : Party → Option (ErrorCode × List Char)
  | .operation => c.answer.map fun answer => dispatchCancel answer.1 answer.2
  | .timer => some (timedOut, "cancel() operation waiting aborted by time-out".toList)

/-- What happens next; `none` means that it cannot happen. -/
def step (c : CancelWait) : CancelEvent → Option CancelWait
  | .returned canceled errbuf =>
      if c.answer.isNone then some { c with answer := some (canceled, errbuf) } else none
  | .counts party =>
      if c.progress party = .uncalled ∧ (c.report party).isSome then
        some { c with
          state := c.state - 1
          progress := Function.update c.progress party (.counted (decide (c.state - 1 ≠ 0))) }
      else
        none
  | .proceeds party =>
      match c.progress party, c.report party with
      | .counted first, some report =>
          some { c with
            progress := Function.update c.progress party .ended
            calls := if first then c.calls ++ [report] else c.calls }
      | _, _ => none

/-! ## The handler is invoked once -/

/-- One party was first; it invokes the handler with its report, and the other
one does not. -/
structure Led (state : Int) (leader follower : CallProgress) (report : Option (ErrorCode × List Char))
    (calls : List (ErrorCode × List Char)) : Prop where
  leads : leader = .counted true ∨ leader = .ended
  follows : follower ≠ .counted true
  state_eq : state = if follower = .uncalled then 1 else 0
  reported : report.isSome
  calls_eq : calls = if leader = .ended then report.toList else []

section

variable {state : Int} {leader follower : CallProgress} {report : Option (ErrorCode × List Char)}
  {calls : List (ErrorCode × List Char)}

theorem Led.followerCounts (led : Led state leader .uncalled report calls) :
    Led (state - 1) leader (.counted (decide (state - 1 ≠ 0))) report calls := by
  have one : state = 1 := led.state_eq
  subst one
  exact ⟨led.leads, by decide, rfl, led.reported, led.calls_eq⟩

theorem Led.leaderProceeds {first : Bool} {given : ErrorCode × List Char}
    (led : Led state (.counted first) follower (some given) calls) :
    Led state .ended follower (some given) (if first then calls ++ [given] else calls) := by
  have yes : first = true := by simpa using led.leads
  have none : calls = [] := by simpa using led.calls_eq
  subst yes none
  exact ⟨.inr rfl, led.follows, led.state_eq, rfl, rfl⟩

theorem Led.followerProceeds {first : Bool} {given : ErrorCode × List Char}
    (led : Led state leader (.counted first) report calls) :
    Led state leader .ended report (if first then calls ++ [given] else calls) := by
  have no : first = false := by simpa using led.follows
  subst no
  refine ⟨led.leads, ?_, led.state_eq, led.reported, led.calls_eq⟩
  exact CallProgress.noConfusion

end

/-- Nobody was called yet, or one party was first. -/
def Sound (c : CancelWait) : Prop :=
  c.state = 2 ∧ (∀ party, c.progress party = .uncalled) ∧ c.calls = [] ∨
    ∃ first, Led c.state (c.progress first) (c.progress first.other) (c.report first) c.calls

theorem Sound.initial : CancelWait.initial.Sound :=
  .inl ⟨rfl, fun _ => rfl, rfl⟩

variable {c next : CancelWait}

theorem Sound.returned {canceled : Bool} {errbuf : List Char} (sound : c.Sound)
    (unanswered : c.answer.isNone) : { c with answer := some (canceled, errbuf) }.Sound := by
  rcases sound with fresh | ⟨first, led⟩
  · exact .inl fresh
  · cases first with
    | operation =>
        have answered := led.reported
        rw [Option.isNone_iff_eq_none] at unanswered
        simp [report, unanswered] at answered
    | timer => exact .inr ⟨.timer, led⟩

theorem Sound.counts {party : Party} (sound : c.Sound) (uncalled : c.progress party = .uncalled)
    (reported : (c.report party).isSome) :
    { c with
      state := c.state - 1
      progress :=
        Function.update c.progress party (.counted (decide (c.state - 1 ≠ 0))) }.Sound := by
  rcases sound with ⟨two, nobody, calls⟩ | ⟨first, led⟩
  · refine .inr ⟨party, ?_⟩
    simp only [Function.update_self, Function.update_of_ne party.other_ne, nobody, two, calls]
    exact ⟨.inl rfl, CallProgress.noConfusion, rfl, reported, rfl⟩
  · rcases party.eq_or_eq_other first with rfl | rfl
    · rcases led.leads with leads | leads <;> rw [uncalled] at leads <;> cases leads
    · refine .inr ⟨first, ?_⟩
      simp only [Function.update_self, Function.update_of_ne first.other_ne.symm]
      rw [uncalled] at led
      exact led.followerCounts

theorem Sound.proceeds {party : Party} {first : Bool} {given : ErrorCode × List Char}
    (sound : c.Sound) (counted : c.progress party = .counted first)
    (reported : c.report party = some given) :
    { c with
      progress := Function.update c.progress party .ended
      calls := if first then c.calls ++ [given] else c.calls }.Sound := by
  rcases sound with ⟨_, nobody, _⟩ | ⟨leader, led⟩
  · rw [nobody party] at counted
    cases counted
  · rcases party.eq_or_eq_other leader with rfl | rfl
    · refine .inr ⟨party, ?_⟩
      simp only [Function.update_self, Function.update_of_ne party.other_ne]
      rw [counted, reported] at led
      have proceeded := led.leaderProceeds
      rw [← reported] at proceeded
      exact proceeded
    · refine .inr ⟨leader, ?_⟩
      simp only [Function.update_self, Function.update_of_ne leader.other_ne.symm]
      rw [counted] at led
      exact led.followerProceeds

theorem Sound.step {event : CancelEvent} (sound : c.Sound) (taken : c.step event = some next) :
    next.Sound := by
  cases event with
  | returned canceled errbuf =>
      simp only [CancelWait.step] at taken
      split at taken
      · cases taken
        exact sound.returned ‹_›
      · cases taken
  | counts party =>
      simp only [CancelWait.step] at taken
      split at taken
      · rename_i enabled
        cases taken
        exact sound.counts enabled.1 enabled.2
      · cases taken
  | proceeds party =>
      simp only [CancelWait.step] at taken
      split at taken
      · rename_i counted reported
        cases taken
        exact sound.proceeds counted reported
      · cases taken

end CancelWait

/-- In every interleaving of `PQcancel`, the operation and the timer, the
handler is invoked at most once, and it was invoked when both calls are over.
A call that is over before the other one starts has invoked it, so that a
`PQcancel` that does not return delays nobody beyond the timer.  The handler is
told that the wait was aborted, or what `PQcancel` answered. -/
theorem cancel_answered_once (c : CancelWait)
    (reachable : Reachable CancelWait.step Any CancelWait.initial c) :
    c.calls.length ≤ 1 ∧
      (c.progress .operation = .ended → c.progress .timer = .ended → c.calls.length = 1) ∧
      (∀ party, c.progress party = .ended → c.progress party.other = .uncalled →
        ∃ report, c.report party = some report ∧ c.calls = [report]) ∧
      ∀ ec msg, (ec, msg) ∈ c.calls →
        ec = timedOut ∧ msg = "cancel() operation waiting aborted by time-out".toList ∨
        (∃ errbuf, c.answer = some (true, errbuf)) ∧ ec = .success ∧ msg = [] ∨
        ∃ errbuf, c.answer = some (false, errbuf) ∧ ec = Error.pqCancelFailed.code ∧
          msg = errbuf.rdropWhile (· = '\x00') := by
  have sound : c.Sound := reachable.invariant .initial fun _ _ _ sound _ taken => sound.step taken
  rcases sound with ⟨_, nobody, calls⟩ | ⟨first, led⟩
  · refine ⟨?_, ?_, ?_, ?_⟩
    · simp [calls]
    · intro ended
      rw [nobody] at ended
      cases ended
    · intro party ended
      rw [nobody] at ended
      cases ended
    · intro ec msg member
      rw [calls] at member
      cases member
  · rcases Option.isSome_iff_exists.mp led.reported with ⟨report, reported⟩
    have calls := led.calls_eq
    rw [reported, Option.toList_some] at calls
    refine ⟨?_, ?_, ?_, ?_⟩
    · rw [calls]
      split <;> simp
    · intro operation timer
      have ended : c.progress first = .ended := by cases first <;> assumption
      rw [calls, if_pos ended]
      rfl
    · intro party ended uncalled
      rcases party.eq_or_eq_other first with rfl | rfl
      · exact ⟨report, reported, calls.trans (if_pos ended)⟩
      · rw [Party.other_other] at uncalled
        rcases led.leads with leads | leads <;> rw [uncalled] at leads <;> cases leads
    · intro ec msg member
      have given : (ec, msg) = report := by
        rw [calls] at member
        split at member
        · exact List.mem_singleton.mp member
        · cases member
      subst given
      cases first with
      | operation =>
          rcases Option.map_eq_some_iff.mp reported with ⟨⟨canceled, errbuf⟩, answered, dispatched⟩
          cases canceled with
          | false =>
              cases (dispatchCancel_failed errbuf).symm.trans dispatched
              exact .inr (.inr ⟨errbuf, answered, rfl, rfl⟩)
          | true =>
              cases dispatched
              exact .inr (.inl ⟨⟨errbuf, answered⟩, rfl, rfl⟩)
      | timer =>
          cases reported
          exact .inl ⟨rfl, rfl⟩

/-- The timer is first while `PQcancel` is still in progress. -/
def abortedWait : List CancelEvent :=
  [.counts .timer, .returned false "no route\x00\x00".toList, .counts .operation,
    .proceeds .operation, .proceeds .timer]

theorem cancel_answered_once_aborted :
    ∃ c, Reachable CancelWait.step Any CancelWait.initial c ∧ c.calls.length = 1 ∧
      c.calls = [(timedOut, "cancel() operation waiting aborted by time-out".toList)] := by
  obtain ⟨c, ran, operation, timer, calls⟩ :
      ∃ c, run CancelWait.step CancelWait.initial abortedWait = some c ∧
        c.progress .operation = .ended ∧ c.progress .timer = .ended ∧
        c.calls = [(timedOut, "cancel() operation waiting aborted by time-out".toList)] :=
    ⟨_, rfl, rfl, rfl, rfl⟩
  have reachable := reachable_of_run ran
  exact ⟨c, reachable, (cancel_answered_once c reachable).2.1 operation timer, calls⟩

end Bozo.Impl
