import Mathlib.Tactic.Common

/-!
# Runs of a partial step function

A system is a partial step function on states, labelled with events.  A run
takes one event after another; it may be restricted to events that are allowed
in the state where they occur.  The invariant rule reduces a property of every
state of every run to one step.
-/

namespace Bozo.Transition

universe u v

variable {σ : Type u} {ι : Type v} {step : σ → ι → Option σ} {allowed : σ → ι → Prop}
  {start state : σ}

/-- The states of the runs from `start` whose events are all allowed. -/
inductive Reachable (step : σ → ι → Option σ) (allowed : σ → ι → Prop) (start : σ) : σ → Prop
  | refl : Reachable step allowed start start
  | tail {state next : σ} {event : ι} :
      Reachable step allowed start state → allowed state event →
        step state event = some next → Reachable step allowed start next

/-- Every event is allowed. -/
def Any (_state : σ) (_event : ι) : Prop :=
  True

/-- What holds at the start and is kept by every allowed step holds in every
state of every run. -/
theorem Reachable.invariant {Inv : σ → Prop} (reachable : Reachable step allowed start state)
    (initial : Inv start)
    (preserved : ∀ state event next, Inv state → allowed state event →
      step state event = some next → Inv next) : Inv state := by
  induction reachable with
  | refl => exact initial
  | tail _ isAllowed taken ih => exact preserved _ _ _ ih isAllowed taken

theorem Reachable.trans {middle : σ} (first : Reachable step allowed start middle)
    (second : Reachable step allowed middle state) : Reachable step allowed start state := by
  induction second with
  | refl => exact first
  | tail _ isAllowed taken ih => exact ih.tail isAllowed taken

/-- Take a list of events, one after another. -/
def run (step : σ → ι → Option σ) (start : σ) : List ι → Option σ
  | [] => some start
  | event :: events => (step start event).bind fun next => run step next events

theorem run_cons {event : ι} {events : List ι} {next : σ} (taken : step start event = some next) :
    run step start (event :: events) = run step next events := by
  rw [run, taken, Option.bind_some]

/-- What holds of the events and the state at the start and is kept by every step
holds of all events and the state of a run. -/
theorem run_invariant {Inv : List ι → σ → Prop} {events : List ι}
    (ran : run step start events = some state) (initial : Inv [] start)
    (preserved : ∀ past state event next, Inv past state → step state event = some next →
      Inv (past ++ [event]) next) : Inv events state := by
  suffices onwards : ∀ past start, Inv past start → run step start events = some state →
      Inv (past ++ events) state from onwards [] start initial ran
  clear ran initial
  induction events with
  | nil =>
      rintro past start holds ⟨⟩
      rw [List.append_nil]
      exact holds
  | cons event events ih =>
      intro past start holds ran
      rcases Option.bind_eq_some_iff.mp ran with ⟨next, taken, rest⟩
      rw [List.append_cons]
      exact ih (past ++ [event]) next (preserved past start event next holds taken) rest

theorem run_append {first second : List ι} {middle : σ}
    (ran : run step start first = some middle) :
    run step start (first ++ second) = run step middle second := by
  induction first generalizing start with
  | nil =>
      cases ran
      rfl
  | cons event events ih =>
      rcases Option.bind_eq_some_iff.mp ran with ⟨next, taken, rest⟩
      rw [List.cons_append, run_cons taken]
      exact ih rest

/-- The end of a run is reachable. -/
theorem reachable_of_run {events : List ι} (ran : run step start events = some state) :
    Reachable step Any start state := by
  induction events generalizing start with
  | nil =>
      cases ran
      exact .refl
  | cons event events ih =>
      rcases Option.bind_eq_some_iff.mp ran with ⟨next, taken, rest⟩
      have first : Reachable step Any start next := .tail .refl trivial taken
      exact first.trans (ih rest)

/-- A run of events that are allowed in every state. -/
theorem reachable_of_run_of_allowed {events : List ι} (ran : run step start events = some state)
    (always : ∀ state, ∀ event ∈ events, allowed state event) :
    Reachable step allowed start state := by
  induction events generalizing start with
  | nil =>
      cases ran
      exact .refl
  | cons event events ih =>
      rcases Option.bind_eq_some_iff.mp ran with ⟨next, taken, rest⟩
      have first : Reachable step allowed start next :=
        .tail .refl (always start event (List.mem_cons_self ..)) taken
      exact first.trans (ih rest fun state other member =>
        always state other (List.mem_cons_of_mem _ member))

end Bozo.Transition
