import Bozo.Impl.DeadlineBound
import Bozo.Transition.Continuation

/-!
# Operations with or without a time constraint

An operation calls its handler itself, or an `io_deadline_handler` does that in
its place.  Either way the operation is a machine that calls back.
-/

namespace Bozo.Impl

open Bozo.Transition

namespace DeadlineHandler

variable {h next : DeadlineHandler} {ec : ErrorCode} {codes : List ErrorCode}

theorem calls_complete (completed : h.complete ec = some next) : h.calls <+: next.calls := by
  unfold complete at completed
  split at completed
  · cases completed
  · split at completed
    · cases completed
      exact List.prefix_rfl
    · cases completed
      exact List.prefix_append _ _

theorem calls_completeAll (completed : h.completeAll codes = some next) :
    h.calls <+: next.calls := by
  induction codes generalizing h with
  | nil =>
      cases completed
      exact List.prefix_rfl
  | cons ec codes ih =>
      rcases Option.bind_eq_some_iff.mp completed with ⟨between, once, rest⟩
      exact (calls_complete once).trans (ih rest)

theorem calls_timer (h : DeadlineHandler) : h.calls <+: h.timer.calls := by
  unfold timer
  split
  · exact List.prefix_rfl
  · exact List.prefix_append _ _

end DeadlineHandler

/-- An operation without a time constraint, or with its deadline. -/
inductive Guarded (σ : Type)
  | unlimited (op : σ)
  | limited (timed : Timed σ)

/-- A wait of an operation without a time constraint completes, or something
happens to an operation and its deadline. -/
inductive GuardedEvent (ι : Type)
  | completed (direction : Direction) (ec : ErrorCode) (answers : ι)
  | limited (event : TimedEvent ι)

namespace Guarded

variable {σ ι : Type} (M : WaitingOp σ ι)

def op : Guarded σ → σ
  | .unlimited op => op
  | .limited timed => timed.op

/-- The operation as its initiating function leaves it. -/
def begin (isLimited : Bool) (op : σ) : Option (Guarded σ) :=
  if isLimited then (Timed.begin M op).map .limited else some (.unlimited op)

def step : Guarded σ → GuardedEvent ι → Option (Guarded σ)
  | .unlimited op, .completed direction ec answers =>
      if M.waits op direction ≠ 0 then
        (M.resume op direction ec answers).map .unlimited
      else
        none
  | .limited timed, .limited event => (timed.step M event).map .limited
  | _, _ => none

/-- What the handler behind the operation was invoked with. -/
def calls : Guarded σ → List ErrorCode
  | .unlimited op => M.calls op
  | .limited timed => timed.deadline.calls

/-- No wait is pending; or the timer has ended and every completion was
delivered. -/
def AtRest : Guarded σ → Prop
  | .unlimited op => ∀ direction, M.waits op direction = 0
  | .limited timed =>
      timed.deadline.timerPending = false ∧ ∀ direction, timed.queued direction = none

def caller : Caller (Guarded σ) (GuardedEvent ι) ErrorCode where
  step := step M
  calls := calls M
  atRest := AtRest M

/-- The completions are sane, and those behind the timer's handler ask for no
other wait. -/
def Allowed (asks sane : σ → Direction → ErrorCode → ι → Prop) :
    Guarded σ → GuardedEvent ι → Prop
  | .unlimited op, .completed direction ec answers => sane op direction ec answers
  | .limited timed, .limited event =>
      Timed.NothingAsked asks timed event ∧ Timed.SaneDelivery sane timed event
  | _, _ => True

def Kept (Inv : σ → Prop) : Guarded σ → Prop
  | .unlimited op => Inv op
  | .limited timed => Timed.Kept M Inv timed

variable {M} {Inv : σ → Prop} {asks sane : σ → Direction → ErrorCode → ι → Prop}

theorem Kept.inv {g : Guarded σ} (kept : g.Kept M Inv) : Inv g.op := by
  cases g with
  | unlimited op => exact kept
  | limited timed => exact kept.op

theorem op_begin {isLimited : Bool} {op : σ} {g : Guarded σ}
    (begun : begin M isLimited op = some g) : g.op = op := by
  unfold begin at begun
  split at begun
  · rcases Option.map_eq_some_iff.mp begun with ⟨timed, timedBegun, rfl⟩
    rcases Option.map_eq_some_iff.mp timedBegun with ⟨deadline, -, rfl⟩
    rfl
  · cases begun
    rfl

theorem Kept.begin {isLimited : Bool} {op : σ} {g : Guarded σ} (holds : Inv op)
    (begun : Guarded.begin M isLimited op = some g) : g.Kept M Inv := by
  unfold Guarded.begin at begun
  split at begun
  · rcases Option.map_eq_some_iff.mp begun with ⟨timed, timedBegun, rfl⟩
    have phase := Timed.phase_begin timedBegun
    rcases Option.map_eq_some_iff.mp timedBegun with ⟨deadline, completed, rfl⟩
    exact Timed.Held.kept ⟨holds, phase⟩ (DeadlineHandler.fired_completeAll completed)
  · cases begun
    exact holds

/-- A success that the handler is given is one of the operation. -/
theorem Kept.succeeded {g : Guarded σ} (kept : g.Kept M Inv) {ec : ErrorCode}
    (called : ec ∈ g.calls M) (succeeds : ec.failed = false) : ec ∈ M.calls g.op := by
  cases g with
  | unlimited op => exact called
  | limited timed =>
      rw [Guarded.calls, kept.phase.calls_eq] at called
      split at called
      · cases called
      · split at called
        · rcases List.mem_map.mp called with ⟨_, -, rfl⟩
          cases succeeds
        · exact called

theorem calls_timedStep {timed next : Timed σ} {event : TimedEvent ι}
    (taken : timed.step M event = some next) : timed.deadline.calls <+: next.deadline.calls := by
  cases event with
  | ready direction ec =>
      simp only [Timed.step] at taken
      split at taken
      · cases taken
        exact List.prefix_rfl
      · cases taken
  | deliver direction answers =>
      rcases Option.bind_eq_some_iff.mp taken with ⟨ec, queued, resumes⟩
      rcases Option.bind_eq_some_iff.mp resumes with ⟨op, resumed, completes⟩
      rcases Option.map_eq_some_iff.mp completes with ⟨deadline, completed, rfl⟩
      exact DeadlineHandler.calls_completeAll completed
  | timer =>
      simp only [Timed.step] at taken
      split at taken
      · cases taken
        exact timed.deadline.calls_timer
      · cases taken

/-- Behind the timer and all completions the handler has been invoked. -/
theorem called_of_atRest (keeps : Timed.Extends M) (relied : Timed.Relied M Inv sane)
    {timed : Timed σ} (kept : timed.Kept M Inv) (ended : timed.deadline.timerPending = false)
    (delivered : ∀ direction, timed.queued direction = none) : timed.deadline.calls ≠ [] := by
  cases fired : timed.deadline.fired with
  | true =>
      rw [((kept.bounded keeps relied).answered fired delivered).1]
      exact List.cons_ne_nil _ _
  | false =>
      have phase := kept.phase
      generalize M.calls timed.op = codes at phase
      generalize timed.deadline = deadline at phase ended fired
      cases phase with
      | waiting => cases ended
      | ended => cases ended
      | expired => cases fired
      | endedFirst => exact List.cons_ne_nil _ _
      | expiredFirst => cases fired

/-- With or without a time constraint, an operation invokes its handler once. -/
theorem callsOnce (decides : Timed.Decides M asks) (keeps : Timed.Extends M)
    (relied : Timed.Relied M Inv sane) :
    (caller M).CallsOnce (Allowed asks sane) (Kept M Inv) where
  preserved {g event next} kept isAllowed taken := by
    cases g with
    | unlimited op =>
        cases event with
        | completed direction ec answers =>
            simp only [caller, step] at taken
            split at taken
            · rcases Option.map_eq_some_iff.mp taken with ⟨after, resumed, rfl⟩
              exact relied.preserved kept isAllowed resumed
            · cases taken
        | limited event => cases taken
    | limited timed =>
        cases event with
        | completed direction ec answers => cases taken
        | limited event =>
            rcases Option.map_eq_some_iff.mp taken with ⟨after, stepped, rfl⟩
            exact Timed.Kept.step decides keeps relied kept isAllowed.1 isAllowed.2 stepped
  adds {g event next} taken := by
    cases g with
    | unlimited op =>
        cases event with
        | completed direction ec answers =>
            simp only [caller, step] at taken
            split at taken
            · rcases Option.map_eq_some_iff.mp taken with ⟨after, resumed, rfl⟩
              exact keeps _ _ _ _ _ resumed
            · cases taken
        | limited event => cases taken
    | limited timed =>
        cases event with
        | completed direction ec answers => cases taken
        | limited event =>
            rcases Option.map_eq_some_iff.mp taken with ⟨after, stepped, rfl⟩
            exact calls_timedStep stepped
  once {g} kept := by
    cases g with
    | unlimited op => exact relied.once kept
    | limited timed =>
        have reported := relied.once kept.op
        show timed.deadline.calls.length ≤ 1
        rw [kept.phase.calls_eq]
        split
        · exact Nat.zero_le 1
        · split
          · rw [List.length_map]
            exact reported
          · exact reported
  called {g} kept atRest := by
    cases g with
    | unlimited op => exact relied.ends kept atRest
    | limited timed => exact called_of_atRest keeps relied kept atRest.1 atRest.2

/-- A step leaves the operation alone, or resumes it with a completion that is
sane. -/
theorem op_step {g next : Guarded σ} {event : GuardedEvent ι}
    (isAllowed : Allowed asks sane g event)
    (taken : step M g event = some next) :
    next.op = g.op ∨ ∃ direction ec answers, sane g.op direction ec answers ∧
      M.resume g.op direction ec answers = some next.op := by
  cases g with
  | unlimited op =>
      cases event with
      | completed direction ec answers =>
          simp only [step] at taken
          split at taken
          · rcases Option.map_eq_some_iff.mp taken with ⟨after, resumed, rfl⟩
            exact .inr ⟨direction, ec, answers, isAllowed, resumed⟩
          · cases taken
      | limited event => cases taken
  | limited timed =>
      cases event with
      | completed direction ec answers => cases taken
      | limited event =>
          rcases Option.map_eq_some_iff.mp taken with ⟨after, stepped, rfl⟩
          cases event with
          | ready direction ec =>
              simp only [Timed.step] at stepped
              split at stepped
              · cases stepped
                exact .inl rfl
              · cases stepped
          | deliver direction answers =>
              rcases Option.bind_eq_some_iff.mp stepped with ⟨ec, queued, delivered⟩
              rcases Option.bind_eq_some_iff.mp delivered with ⟨op, resumed, completes⟩
              rcases Option.map_eq_some_iff.mp completes with ⟨deadline, -, rfl⟩
              have sound := isAllowed.2 direction answers ec rfl queued
              exact .inr ⟨direction, ec, answers, sound, resumed⟩
          | timer =>
              simp only [Timed.step] at stepped
              split at stepped
              · cases stepped
                exact .inl rfl
              · cases stepped

/-- Any step is allowed when nothing asks and everything is sane. -/
theorem allowed_trivial (g : Guarded σ) (event : GuardedEvent ι) :
    Allowed (fun _ _ _ _ => False) (fun _ _ _ _ => True) g event := by
  cases g with
  | unlimited op =>
      cases event with
      | completed direction ec answers => exact trivial
      | limited event => exact trivial
  | limited timed =>
      cases event with
      | completed direction ec answers => exact trivial
      | limited event => exact ⟨fun _ _ _ _ _ _ => id, fun _ _ _ _ _ => trivial⟩

/-- What a machine does, the operation in it does. -/
theorem reachable_op {ε : Type} {steps : σ → ε → Option σ}
    (resumes : ∀ {before direction ec answers after},
      M.resume before direction ec answers = some after → ∃ event, steps before event = some after)
    {allowed : Guarded σ → GuardedEvent ι → Prop} {start g : Guarded σ}
    (reachable : Reachable (caller M).step allowed start g) :
    Reachable steps Any start.op g.op := by
  induction reachable with
  | refl => exact .refl
  | @tail g next event _ _ taken ih =>
      rcases op_step (g.allowed_trivial event) taken with
        same | ⟨direction, ec, answers, -, resumed⟩
      · rw [same]
        exact ih
      · rcases resumes resumed with ⟨event, stepped⟩
        exact ih.tail trivial stepped

/-- The handler behind an operation is invoked only when the operation has called. -/
theorem Kept.called {g : Guarded σ} (kept : g.Kept M Inv) (called : g.calls M ≠ []) :
    M.calls g.op ≠ [] := by
  cases g with
  | unlimited op => exact called
  | limited timed =>
      intro none
      have calls := kept.phase.calls_eq
      simp only [op] at none
      rw [none, List.map_nil, ite_self, ite_self] at calls
      exact called calls

end Guarded

end Bozo.Impl
