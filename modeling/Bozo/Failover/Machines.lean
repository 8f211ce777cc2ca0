import Bozo.Failover.NestedRuns
import Bozo.Transition.Continuation

/-!
# Strategies over machines

The attempts of an operation under a strategy are machines, which take their
turns with whatever else happens and call back at some time.  What is observed
of them is a run of the strategy over the outcomes that the machines turn out to
have; until the last one has called back, it is the beginning of such a run.

An operation under a strategy is a machine that calls back again.
-/

namespace Bozo.Failover

open Bozo.Transition

variable {χ κ σ ι ω : Type}

/-- An asynchronous operation: the machine that runs with a context, how one is
started, and the connection that its handler is called with. -/
structure Asynchronous (χ κ σ ι ω : Type) where
  machine : χ → Caller σ ι ErrorCode
  start : χ → ω → Option σ
  connection : σ → Option κ

/-- What is known of an attempt: its try and its context, whether it was over
inside its initiation, and what its handler was called with, if it was. -/
structure Known (layer : Layer χ κ) where
  current : layer.Try
  ctx : χ
  inline : Bool
  outcome : Option (Outcome κ)

structure Tried (layer : Layer χ κ) (σ : Type) extends Known layer where
  op : σ

/-- The attempts under a strategy, by the context that the tries hold and the
number of the first attempt, and what was observable of them. -/
structure Attempts (layer : Layer χ κ) (σ : Type) where
  held : χ
  number : Nat
  attempts : List (Tried layer σ)
  trace : List (Action χ κ)

def Attempts.known {layer : Layer χ κ} (s : Attempts layer σ) : List (Known layer) :=
  s.attempts.map Tried.toKnown

/-- Something happens to the machine of an attempt; the inputs are for those that
are started behind it, by their numbers. -/
structure AttemptEvent (ι ω : Type) where
  position : Nat
  event : ι
  inputs : Nat → ω

namespace Layer

variable (layer : Layer χ κ) (op : Asynchronous χ κ σ ι ω) (held : χ) (inputs : Nat → ω)

/-- `initiate_operation`, with the continuation that is called if the attempt is
over inside its initiation: the attempts that are made and what is observable. -/
def attempt (continuation : Outcome κ → Option (List (Tried layer σ) × List (Action χ κ)))
    (current : layer.Try) (i : Nat) : Option (List (Tried layer σ) × List (Action χ κ)) :=
  let ctx := layer.getTryContext current i held
  (op.start ctx (inputs i)).bind fun state =>
    match (op.machine ctx).calls state with
    | [] => some ([⟨⟨current, ctx, false, none⟩, state⟩], [.initiate ctx])
    | [ec] =>
        let outcome := ⟨ec, op.connection state⟩
        (continuation outcome).map fun (more, actions) =>
          (⟨⟨current, ctx, true, some outcome⟩, state⟩ :: more, .initiate ctx :: actions)
    | _ => none

/-- `continuation::operator()`, called when the next attempt has the number `i`. -/
def resume (current : layer.Try) (outcome : Outcome κ) (i : Nat) :
    Option (List (Tried layer σ) × List (Action χ κ)) :=
  if outcome.ec.failed then
    let given := layer.strategy.initiateNextTry current outcome.ec outcome.conn
    let before := given.before.map (Action.map fun next => layer.getTryContext next i held)
    let after := given.after.map (Action.map fun next => layer.getTryContext next i held)
    match again : given.next with
    | some next =>
        (layer.attempt op held inputs (fun outcome => resume next outcome (i + 1)) next i).map
          fun (more, actions) => (more, before ++ actions ++ after)
    | none => some ([], before ++ after ++ [.handle outcome.ec outcome.conn])
  else
    some ([], [.handle outcome.ec outcome.conn])
termination_by layer.strategy.triesLeft current
decreasing_by exact layer.strategy.triesLeft_lt again

/-- `operation_initiator::operator()`. -/
def start (ctx : χ) (number : Nat) : Option (Attempts layer σ) :=
  let held := layer.basicContext number ctx
  (layer.attempt op held inputs
    (fun outcome => layer.resume op held inputs layer.getFirstTry outcome (number + 1))
    layer.getFirstTry number).map fun (attempts, trace) => ⟨held, number, attempts, trace⟩

/-- What happens to the machine of an attempt; the call of its handler is that of
the continuation. -/
def step (s : Attempts layer σ) (event : AttemptEvent ι ω) : Option (Attempts layer σ) :=
  s.attempts[event.position]?.bind fun tried =>
    ((op.machine tried.ctx).step tried.op event.event).bind fun state =>
      match ((op.machine tried.ctx).calls state).drop
          ((op.machine tried.ctx).calls tried.op).length with
      | [] => some { s with attempts := s.attempts.set event.position { tried with op := state } }
      | [ec] =>
          let outcome := ⟨ec, op.connection state⟩
          (layer.resume op s.held event.inputs tried.current outcome
            (s.number + s.attempts.length)).map fun (more, actions) =>
              { s with
                attempts := s.attempts.set event.position
                  { tried with op := state, outcome := some outcome } ++ more
                trace := s.trace ++ actions }
      | _ => none

/-- What the handler of the user was called with. -/
def handled (s : Attempts layer σ) : List (ErrorCode × Option κ) :=
  s.trace.filterMap Action.handled?

/-- An operation under a strategy is an operation. -/
def under : Asynchronous χ κ (Attempts layer σ) (AttemptEvent ι ω) (Nat × (Nat → ω)) where
  machine _ :=
    { step := layer.step op
      calls := fun s => (layer.handled s).map Prod.fst
      atRest := fun s => ∀ tried ∈ s.attempts, (op.machine tried.ctx).atRest tried.op }
  start ctx numbered := layer.start op numbered.2 ctx numbered.1
  connection s := (layer.handled s).head?.bind Prod.snd

variable {layer op held}

/-! ## What a continuation does -/

section Resumed

variable {inputs} {current next : layer.Try} {outcome : Outcome κ} {i : Nat}
  {more : List (Tried layer σ)} {actions : List (Action χ κ)}

theorem resume_of_next (failed : outcome.ec.failed = true)
    (again : (layer.strategy.initiateNextTry current outcome.ec outcome.conn).next = some next) :
    layer.resume op held inputs current outcome i =
      (layer.attempt op held inputs
        (fun outcome => layer.resume op held inputs next outcome (i + 1)) next i).map
          fun (more, actions) => (more,
            (layer.strategy.initiateNextTry current outcome.ec outcome.conn).before.map
              (Action.map fun next => layer.getTryContext next i held) ++ actions ++
            (layer.strategy.initiateNextTry current outcome.ec outcome.conn).after.map
              (Action.map fun next => layer.getTryContext next i held)) := by
  rw [resume, if_pos failed]
  simp only
  split
  · rename_i other same
    rw [again] at same
    cases same
    rfl
  · rename_i none
    rw [again] at none
    cases none

theorem resume_of_last (failed : outcome.ec.failed = true)
    (last : (layer.strategy.initiateNextTry current outcome.ec outcome.conn).next = none) :
    layer.resume op held inputs current outcome i = some ([],
      (layer.strategy.initiateNextTry current outcome.ec outcome.conn).before.map
          (Action.map fun next => layer.getTryContext next i held) ++
        (layer.strategy.initiateNextTry current outcome.ec outcome.conn).after.map
          (Action.map fun next => layer.getTryContext next i held) ++
        [.handle outcome.ec outcome.conn]) := by
  rw [resume, if_pos failed]
  simp only
  split
  · rename_i next again
    rw [last] at again
    cases again
  · rfl

theorem resume_of_success (succeeds : outcome.ec.failed = false) :
    layer.resume op held inputs current outcome i =
      some ([], [.handle outcome.ec outcome.conn]) := by
  rw [resume, if_neg (Bool.eq_false_iff.mp succeeds)]

variable {s : Attempts layer σ} {event : AttemptEvent ι ω} {tried : Tried layer σ} {state : σ}

theorem step_of_silent (here : s.attempts[event.position]? = some tried)
    (stepped : (op.machine tried.ctx).step tried.op event.event = some state)
    (silent : ((op.machine tried.ctx).calls state).drop
      ((op.machine tried.ctx).calls tried.op).length = []) :
    layer.step op s event =
      some { s with attempts := s.attempts.set event.position { tried with op := state } } := by
  rw [step, here, Option.bind_some, stepped, Option.bind_some]
  simp only [silent]

theorem step_of_called {ec : ErrorCode} (here : s.attempts[event.position]? = some tried)
    (stepped : (op.machine tried.ctx).step tried.op event.event = some state)
    (added : ((op.machine tried.ctx).calls state).drop
      ((op.machine tried.ctx).calls tried.op).length = [ec])
    (resumed : layer.resume op s.held event.inputs tried.current ⟨ec, op.connection state⟩
      (s.number + s.attempts.length) = some (more, actions)) :
    layer.step op s event = some { s with
      attempts := s.attempts.set event.position
        { tried with op := state, outcome := some ⟨ec, op.connection state⟩ } ++ more
      trace := s.trace ++ actions } := by
  rw [step, here, Option.bind_some, stepped, Option.bind_some]
  simp only [added, resumed, Option.map_some]

@[simp]
theorem step_under (ctx : χ) (s : Attempts layer σ) (event : AttemptEvent ι ω) :
    ((layer.under op).machine ctx).step s event = layer.step op s event :=
  rfl

end Resumed

/-! ## What is done and what is still to be done -/

/-- Outcomes that attempts with numbers from `i` on have, as far as they are
known. -/
def Agree (outcomes : Nat → Outcome κ) (inline : Nat → Bool) (i : Nat)
    (known : List (Known layer)) : Prop :=
  ∀ j tried, known[j]? = some tried → inline (i + j) = tried.inline ∧
    ∀ outcome, tried.outcome = some outcome → outcomes (i + j) = outcome

variable (layer held) in
/-- What the continuation of the last attempt will do, unless it was called. -/
def pending (outcomes : Nat → Outcome κ) (inline : Nat → Bool) :
    Nat → List (Known layer) → List (Action χ κ)
  | _, [] => []
  | i, [tried] =>
      if tried.outcome.isSome then
        []
      else
        (layer.continuation (perform outcomes inline) held tried.current invoke (outcomes i)
          (i + 1)).trace
  | i, _ :: rest => pending outcomes inline (i + 1) rest

section Known

variable {outcomes : Nat → Outcome κ} {inline : Nat → Bool} {known front more : List (Known layer)}
  {i : Nat}

theorem exists_agree (i : Nat) (known : List (Known layer)) :
    ∃ outcomes inline, Agree outcomes inline i known := by
  refine ⟨fun n => ((known[n - i]?).bind Known.outcome).getD ⟨.success, none⟩,
    fun n => (known[n - i]?).elim false Known.inline, fun j tried here => ?_⟩
  simp only [Nat.add_sub_cancel_left, here]
  refine ⟨rfl, fun outcome given => ?_⟩
  rw [Option.bind_some, given, Option.getD_some]

theorem Agree.cons {tried : Known layer} (agree : Agree outcomes inline i (tried :: known)) :
    (inline i = tried.inline ∧ ∀ outcome, tried.outcome = some outcome → outcomes i = outcome) ∧
      Agree outcomes inline (i + 1) known := by
  refine ⟨agree 0 tried rfl, fun j other here => ?_⟩
  have later := agree (j + 1) other here
  rw [← Nat.add_assoc, Nat.add_right_comm] at later
  exact later

theorem Agree.append (agree : Agree outcomes inline i (front ++ more)) :
    Agree outcomes inline i front ∧ Agree outcomes inline (i + front.length) more := by
  induction front generalizing i with
  | nil =>
      refine ⟨fun j other here => ?_, agree⟩
      cases here
  | cons tried front ih =>
      rcases agree.cons with ⟨first, rest⟩
      rcases ih rest with ⟨between, behind⟩
      refine ⟨fun j other here => ?_, ?_⟩
      · cases j with
        | zero =>
            cases here
            exact first
        | succ j =>
            have later := between j other here
            rw [Nat.add_right_comm, Nat.add_assoc] at later
            exact later
      · rw [List.length_cons, ← Nat.add_assoc, Nat.add_right_comm]
        exact behind

theorem pending_append (nonempty : more ≠ []) (front : List (Known layer)) (i : Nat) :
    pending layer held outcomes inline i (front ++ more) =
      pending layer held outcomes inline (i + front.length) more := by
  induction front generalizing i with
  | nil => rfl
  | cons tried front ih =>
      have behind : front ++ more ≠ [] := List.append_ne_nil_of_right_ne_nil _ nonempty
      rw [List.cons_append, pending, ih (i + 1), List.length_cons, Nat.add_assoc, Nat.add_comm 1]
      · intro none
        exact absurd none behind

/-- Nothing is left to be done by the continuation of an attempt that is over. -/
theorem pending_of_over {tried : Known layer} (isOver : tried.outcome.isSome = true) (i : Nat) :
    pending layer held outcomes inline i (tried :: more) =
      pending layer held outcomes inline (i + 1) more := by
  cases more with
  | nil => simp [pending, isOver]
  | cons second more => rfl

end Known

/-! ## Attempts that are started -/

variable (op) in
/-- The machine of an attempt has called its handler with what is known. -/
def Recorded (tried : Tried layer σ) : Prop :=
  (op.machine tried.ctx).calls tried.op = tried.outcome.toList.map Outcome.ec

/-- An attempt behind which another one is made is over, and has failed. -/
def Sequential (known : List (Known layer)) : Prop :=
  ∀ tried ∈ known.dropLast, ∃ outcome, tried.outcome = some outcome ∧ outcome.ec.failed = true

variable (op held) in
/-- Attempts with numbers from `i` on that were made, and what was observable, as
the first part of some effects: that of all outcomes that the attempts can have. -/
structure Starts (Inv : χ → σ → Prop) (i : Nat)
    (effects : (Nat → Outcome κ) → (Nat → Bool) → Effects (Action χ κ))
    (attempts : List (Tried layer σ)) (actions : List (Action χ κ)) : Prop where
  recorded : ∀ tried ∈ attempts, Recorded op tried
  inv : ∀ tried ∈ attempts, Inv tried.ctx tried.op
  sequential : Sequential (attempts.map Tried.toKnown)
  initiated : actions.filterMap Action.initiated? = attempts.map fun tried => tried.ctx
  now : ∀ outcomes inline, Agree outcomes inline i (attempts.map Tried.toKnown) →
    (effects outcomes inline).now = actions
  later : ∀ outcomes inline, Agree outcomes inline i (attempts.map Tried.toKnown) →
    (effects outcomes inline).later =
      pending layer held outcomes inline i (attempts.map Tried.toKnown)

section Starts

variable {inputs : Nat → ω} {fits : χ → ω → Prop} {Inv : χ → σ → Prop}
  {current : layer.Try} {i : Nat} {attempts : List (Tried layer σ)} {actions : List (Action χ κ)}

theorem Sequential.cons {tried : Known layer} {known : List (Known layer)}
    (isOver : known ≠ [] → ∃ outcome, tried.outcome = some outcome ∧ outcome.ec.failed = true)
    (sequential : Sequential known) : Sequential (tried :: known) := by
  cases known with
  | nil =>
      intro other member
      cases member
  | cons second known =>
      intro other member
      rw [List.dropLast_cons_of_ne_nil (List.cons_ne_nil _ _)] at member
      rcases List.mem_cons.mp member with rfl | behind
      · exact isOver (List.cons_ne_nil _ _)
      · exact sequential other behind

/-- An attempt is made.  If it is over inside its initiation, its continuation
goes on. -/
theorem attempt_starts
    (starts : ∀ {ctx input state}, fits ctx input → op.start ctx input = some state → Inv ctx state)
    (fit : ∀ ctx i, fits ctx (inputs i))
    {continuation : Outcome κ → Option (List (Tried layer σ) × List (Action χ κ))}
    (continues : ∀ outcome more acts, continuation outcome = some (more, acts) →
      Starts op held Inv (i + 1) (fun outcomes inline => layer.continuation
          (perform outcomes inline) held current invoke outcome (i + 1)) more acts ∧
        (more ≠ [] → outcome.ec.failed = true))
    (made : layer.attempt op held inputs continuation current i = some (attempts, actions)) :
    Starts op held Inv i (fun outcomes inline => layer.initiateOperation
      (perform outcomes inline) held current i invoke) attempts actions ∧ attempts ≠ [] := by
  rcases Option.bind_eq_some_iff.mp made with ⟨state, started, rest⟩
  have holds := starts (fit _ i) started
  split at rest
  · rename_i silent
    cases rest
    refine ⟨⟨?_, ?_, ?_, rfl, ?_, ?_⟩, List.cons_ne_nil _ _⟩
    · intro tried member
      cases List.mem_singleton.mp member
      exact silent
    · intro tried member
      cases List.mem_singleton.mp member
      exact holds
    · intro tried member
      cases member
    · intro outcomes inline agree
      have unfinished : inline i = false := agree.cons.1.1
      simp [initiateOperation, perform, unfinished]
    · intro outcomes inline agree
      have unfinished : inline i = false := agree.cons.1.1
      simp [initiateOperation, perform, unfinished, pending, Effects.trace]
  · rename_i ec called
    rcases Option.map_eq_some_iff.mp rest with ⟨⟨more, acts⟩, continued, same⟩
    cases same
    rcases continues _ more acts continued with ⟨behind, failed⟩
    refine ⟨⟨?_, ?_, ?_, ?_, ?_, ?_⟩, List.cons_ne_nil _ _⟩
    · intro tried member
      rcases List.mem_cons.mp member with rfl | later
      · exact called
      · exact behind.recorded tried later
    · intro tried member
      rcases List.mem_cons.mp member with rfl | later
      · exact holds
      · exact behind.inv tried later
    · refine behind.sequential.cons fun nonempty => ⟨_, rfl, failed ?_⟩
      rintro rfl
      exact nonempty rfl
    · exact congrArg (_ :: ·) behind.initiated
    · intro outcomes inline agree
      rcases agree.cons with ⟨⟨isOver, outcome⟩, rest⟩
      have isOver : inline i = true := isOver
      simp [initiateOperation, perform, isOver, outcome _ rfl, behind.now outcomes inline rest]
    · intro outcomes inline agree
      rcases agree.cons with ⟨⟨isOver, outcome⟩, rest⟩
      have isOver : inline i = true := isOver
      have later := behind.later outcomes inline rest
      rw [List.map_cons]
      cases more with
      | nil => simpa [initiateOperation, perform, isOver, outcome _ rfl, pending] using later
      | cons second more =>
          simpa [initiateOperation, perform, isOver, outcome _ rfl, pending] using later
  · cases rest

/-- What is done before another try and afterwards initiates nothing. -/
theorem initiated_given (layer : Layer χ κ) (context : layer.Try → χ) (current : layer.Try)
    (outcome : Outcome κ) :
    ((layer.strategy.initiateNextTry current outcome.ec outcome.conn).before.map
        (Action.map context)).filterMap Action.initiated? = [] ∧
      ((layer.strategy.initiateNextTry current outcome.ec outcome.conn).after.map
        (Action.map context)).filterMap Action.initiated? = [] := by
  obtain ⟨early, before, closes⟩ := layer.strategy.actions current outcome.ec outcome.conn
  have silent : ∀ action ∈ early ++
      (layer.strategy.initiateNextTry current outcome.ec outcome.conn).after,
      (action.map context).initiated? = none := by
    intro action member
    rw [closes] at member
    unfold deferCloseConnection at member
    split at member
    · rcases List.mem_map.mp member with ⟨conn, -, rfl⟩
      rfl
    · cases member
  constructor
  · rw [List.filterMap_map, List.filterMap_eq_nil_iff, before]
    intro action member
    rcases List.mem_append.mp member with notice | early
    · rcases Option.map_eq_some_iff.mp (Option.mem_toList.mp notice) with ⟨next, -, rfl⟩
      rfl
    · exact silent action (List.mem_append_left _ early)
  · rw [List.filterMap_map, List.filterMap_eq_nil_iff]
    exact fun action member => silent action (List.mem_append_right _ member)

/-- A continuation that makes no attempt has no effects later. -/
theorem starts_nil {effects : (Nat → Outcome κ) → (Nat → Bool) → Effects (Action χ κ)}
    (initiated : actions.filterMap Action.initiated? = [])
    (same : ∀ outcomes inline, effects outcomes inline = ⟨actions, []⟩) :
    Starts op held Inv i effects ([] : List (Tried layer σ)) actions := by
  constructor
  · intro tried member
    cases member
  · intro tried member
    cases member
  · intro tried member
    cases member
  · exact initiated
  · intro outcomes inline _
    rw [same]
  · intro outcomes inline _
    rw [same]
    rfl

/-- Attempts that were made by the continuation of another one. -/
theorem resume_starts
    (starts : ∀ {ctx input state}, fits ctx input → op.start ctx input = some state → Inv ctx state)
    (fit : ∀ ctx i, fits ctx (inputs i)) (current : layer.Try) (outcome : Outcome κ) (i : Nat)
    (attempts : List (Tried layer σ)) (actions : List (Action χ κ))
    (resumed : layer.resume op held inputs current outcome i = some (attempts, actions)) :
    Starts op held Inv i (fun outcomes inline => layer.continuation (perform outcomes inline) held
        current invoke outcome i) attempts actions ∧
      (attempts ≠ [] → outcome.ec.failed = true) := by
  induction left : layer.strategy.triesLeft current using Nat.strong_induction_on
    generalizing current outcome i attempts actions with
  | _ left ih =>
      subst left
      by_cases failed : outcome.ec.failed = true
      · refine ⟨?_, fun _ => failed⟩
        obtain ⟨noneBefore, noneAfter⟩ := layer.initiated_given
          (fun next => layer.getTryContext next i held) current outcome
        cases again : (layer.strategy.initiateNextTry current outcome.ec outcome.conn).next with
        | some next =>
            rw [resume_of_next failed again] at resumed
            rcases Option.map_eq_some_iff.mp resumed with ⟨⟨more, acts⟩, made, same⟩
            cases same
            have rest := (attempt_starts starts fit (fun outcome more acts continued =>
              ih _ (layer.strategy.triesLeft_lt again) next outcome (i + 1) more acts continued rfl)
              made).1
            refine ⟨rest.recorded, rest.inv, rest.sequential, ?_, ?_, ?_⟩
            · rw [List.filterMap_append, List.filterMap_append, noneBefore, noneAfter,
                rest.initiated, List.nil_append, List.append_nil]
            · intro outcomes inline agree
              rw [layer.continuation_eq_of_next failed again, rest.now outcomes inline agree]
            · intro outcomes inline agree
              rw [layer.continuation_eq_of_next failed again]
              exact rest.later outcomes inline agree
        | none =>
            rw [resume_of_last failed again] at resumed
            cases resumed
            apply starts_nil
            · rw [List.filterMap_append, List.filterMap_append, noneBefore, noneAfter]
              rfl
            · intro outcomes inline
              exact layer.continuation_eq_of_last failed again
      · rw [resume_of_success (Bool.eq_false_iff.mpr failed)] at resumed
        cases resumed
        refine ⟨starts_nil rfl fun outcomes inline => ?_, fun nonempty => absurd rfl nonempty⟩
        rw [continuation, if_neg failed]
        rfl

end Starts

/-! ## Runs -/

variable (op) in
/-- The attempts are made one behind another, and what was observable is the
beginning of the run for all outcomes that they can have. -/
structure Sound (Inv : χ → σ → Prop) (ctx : χ) (s : Attempts layer σ) : Prop where
  held : s.held = layer.basicContext s.number ctx
  nonempty : s.attempts ≠ []
  recorded : ∀ tried ∈ s.attempts, Recorded op tried
  inv : ∀ tried ∈ s.attempts, Inv tried.ctx tried.op
  sequential : Sequential s.known
  initiated : s.trace.filterMap Action.initiated? = s.attempts.map fun tried => tried.ctx
  refines : ∀ outcomes inline, Agree outcomes inline s.number s.known →
    (layer.operationInitiator (perform outcomes inline) ctx s.number invoke).trace =
      s.trace ++ pending layer s.held outcomes inline s.number s.known

section Sound

variable {inputs : Nat → ω} {fits : χ → ω → Prop} {Inv : χ → σ → Prop}
  {allowed : χ → σ → ι → Prop} {ctx : χ} {s next : Attempts layer σ}

theorem start_sound
    (starts : ∀ {ctx input state}, fits ctx input → op.start ctx input = some state → Inv ctx state)
    (fit : ∀ ctx i, fits ctx (inputs i)) {number : Nat}
    (started : layer.start op inputs ctx number = some s) : Sound op Inv ctx s := by
  rcases Option.map_eq_some_iff.mp started with ⟨⟨attempts, trace⟩, made, rfl⟩
  rcases attempt_starts starts fit (resume_starts starts fit layer.getFirstTry · (number + 1) · ·)
    made with ⟨first, nonempty⟩
  refine ⟨rfl, nonempty, first.recorded, first.inv, first.sequential, first.initiated, ?_⟩
  intro outcomes inline agree
  have now := first.now outcomes inline agree
  have later := first.later outcomes inline agree
  exact congrArg₂ (· ++ ·) now later

/-- The machine of an attempt takes a step and does not call. -/
theorem Sound.silent (sound : Sound op Inv ctx s) {position : Nat} {tried : Tried layer σ}
    {state : σ} (here : s.attempts[position]? = some tried) (holds : Inv tried.ctx state)
    (same : (op.machine tried.ctx).calls state = (op.machine tried.ctx).calls tried.op) :
    Sound op Inv ctx
      { s with attempts := s.attempts.set position { tried with op := state } } := by
  rcases List.getElem?_eq_some_iff.mp here with ⟨inside, rfl⟩
  have known : (s.attempts.set position { s.attempts[position] with op := state }).map
      Tried.toKnown = s.attempts.map Tried.toKnown := by
    rw [List.map_set, ← List.getElem_map Tried.toKnown (h := by simpa using inside)]
    exact List.set_getElem_self _
  have contexts : (s.attempts.set position { s.attempts[position] with op := state }).map
      (fun tried => tried.ctx) = s.attempts.map fun tried => tried.ctx := by
    have same := congrArg (List.map Known.ctx) known
    rw [List.map_map, List.map_map] at same
    exact same
  constructor
  · exact sound.held
  · intro none
    have lengths := congrArg List.length none
    rw [List.length_set] at lengths
    exact sound.nonempty (List.length_eq_zero_iff.mp lengths)
  · intro other member
    rcases List.mem_or_eq_of_mem_set member with before | rfl
    · exact sound.recorded other before
    · exact same.trans (sound.recorded _ (List.getElem_mem inside))
  · intro other member
    rcases List.mem_or_eq_of_mem_set member with before | rfl
    · exact sound.inv other before
    · exact holds
  · intro other member
    rw [Attempts.known, known] at member
    exact sound.sequential other member
  · exact sound.initiated.trans contexts.symm
  · intro outcomes inline agree
    rw [Attempts.known, known] at agree ⊢
    exact sound.refines outcomes inline agree

/-- An attempt that is not over is the last one. -/
theorem Sound.last (sound : Sound op Inv ctx s) {position : Nat} {tried : Tried layer σ}
    (here : s.attempts[position]? = some tried) (unfinished : tried.outcome = none) :
    ∃ front, s.attempts = front ++ [tried] ∧ position = front.length := by
  rcases List.eq_nil_or_concat s.attempts with none | ⟨front, last, same⟩
  · exact absurd none sound.nonempty
  · rw [List.concat_eq_append] at same
    rw [same] at here
    rcases Nat.lt_trichotomy position front.length with before | rfl | behind
    · rw [List.getElem?_append_left before] at here
      have member : tried.toKnown ∈ s.known.dropLast := by
        rw [Attempts.known, same, List.map_append, List.map_singleton, List.dropLast_concat]
        exact List.mem_map_of_mem (List.mem_of_getElem? here)
      rcases sound.sequential _ member with ⟨outcome, isOver, -⟩
      rw [unfinished] at isOver
      cases isOver
    · rw [List.getElem?_append_right (Nat.le_refl _), Nat.sub_self] at here
      cases here
      exact ⟨front, same, rfl⟩
    · rw [List.getElem?_append_right (Nat.le_of_lt behind)] at here
      have inside := (List.getElem?_eq_some_iff.mp here).1
      rw [List.length_singleton] at inside
      omega

/-- The machine of the last attempt calls, and its continuation goes on. -/
theorem Sound.called
    (starts : ∀ {ctx input state}, fits ctx input → op.start ctx input = some state → Inv ctx state)
    (fit : ∀ ctx i, fits ctx (inputs i)) (sound : Sound op Inv ctx s)
    {front more : List (Tried layer σ)} {tried : Tried layer σ} {state : σ} {outcome : Outcome κ}
    {actions : List (Action χ κ)} (last : s.attempts = front ++ [tried])
    (running : tried.outcome = none) (holds : Inv tried.ctx state)
    (calls : (op.machine tried.ctx).calls state = [outcome.ec])
    (resumed : layer.resume op s.held inputs tried.current outcome
      (s.number + s.attempts.length) = some (more, actions)) :
    Sound op Inv ctx { s with
      attempts := front ++ { tried with op := state, outcome := some outcome } :: more
      trace := s.trace ++ actions } := by
  rcases resume_starts starts fit _ _ _ _ _ resumed with ⟨behind, failed⟩
  have isOver : Sequential (front.map Tried.toKnown ++ [tried.toKnown]) := by
    have before := sound.sequential
    rw [Attempts.known, last, List.map_append, List.map_singleton] at before
    exact before
  constructor
  · exact sound.held
  · exact List.append_ne_nil_of_right_ne_nil _ (List.cons_ne_nil _ _)
  · intro other member
    rcases List.mem_append.mp member with before | here
    · exact sound.recorded other (last ▸ List.mem_append_left _ before)
    · rcases List.mem_cons.mp here with rfl | later
      · exact calls
      · exact behind.recorded other later
  · intro other member
    rcases List.mem_append.mp member with before | here
    · exact sound.inv other (last ▸ List.mem_append_left _ before)
    · rcases List.mem_cons.mp here with rfl | later
      · exact holds
      · exact behind.inv other later
  · rw [Attempts.known, List.map_append, List.map_cons]
    have later : Sequential ({ tried.toKnown with outcome := some outcome } ::
        more.map Tried.toKnown) :=
      behind.sequential.cons fun nonempty =>
        ⟨outcome, rfl, failed fun none => nonempty (by rw [none]; rfl)⟩
    intro other member
    rw [List.dropLast_append_of_ne_nil (List.cons_ne_nil _ _)] at member
    rcases List.mem_append.mp member with before | here
    · apply isOver
      rw [List.dropLast_concat]
      exact before
    · exact later other here
  · rw [List.filterMap_append, sound.initiated, behind.initiated, last]
    simp
  · intro outcomes inline agree
    rw [Attempts.known, List.map_append, List.map_cons] at agree
    rcases agree.append with ⟨before, rest⟩
    rcases rest.cons with ⟨⟨sameInline, known⟩, later⟩
    rw [List.length_map] at sameInline known later
    have agreed : Agree outcomes inline s.number s.known := by
      rw [Attempts.known, last, List.map_append, List.map_singleton]
      intro j other here
      by_cases inside : j < (front.map Tried.toKnown).length
      · rw [List.getElem?_append_left inside] at here
        exact before j other here
      · rw [List.getElem?_append_right (Nat.le_of_not_lt inside)] at here
        have bound := (List.getElem?_eq_some_iff.mp here).1
        rw [List.length_singleton] at bound
        have position : j = (front.map Tried.toKnown).length := by omega
        subst position
        rw [Nat.sub_self] at here
        cases here
        rw [List.length_map]
        refine ⟨sameInline, fun outcome given => ?_⟩
        rw [running] at given
        cases given
    have number : s.number + s.attempts.length = s.number + front.length + 1 := by
      rw [last, List.length_append, List.length_singleton, Nat.add_assoc]
    rw [number] at behind
    have now := behind.now outcomes inline later
    have remains := behind.later outcomes inline later
    have isOver : ({ tried.toKnown with outcome := some outcome } : Known layer).outcome.isSome =
        true := rfl
    show _ = s.trace ++ actions ++ pending layer s.held outcomes inline s.number _
    rw [sound.refines outcomes inline agreed, Attempts.known, last, List.map_append,
      List.map_singleton, pending_append (List.cons_ne_nil _ _), Attempts.known, List.map_append,
      List.map_cons, pending_append (List.cons_ne_nil _ _), pending_of_over isOver, List.length_map,
      ← remains, List.append_assoc, ← now, pending, running, known outcome rfl]
    rfl

/-- What may happen to the machine of an attempt, with inputs that fit. -/
def Allowed (allowed : χ → σ → ι → Prop) (fits : χ → ω → Prop) (s : Attempts layer σ)
    (event : AttemptEvent ι ω) : Prop :=
  (∀ tried, s.attempts[event.position]? = some tried →
    allowed tried.ctx tried.op event.event) ∧ ∀ ctx i, fits ctx (event.inputs i)

/-- One step of the machine of an attempt. -/
theorem Sound.step (once : ∀ ctx, (op.machine ctx).CallsOnce (allowed ctx) (Inv ctx))
    (starts : ∀ {ctx input state}, fits ctx input → op.start ctx input = some state → Inv ctx state)
    {event : AttemptEvent ι ω} (sound : Sound op Inv ctx s)
    (isAllowed : Allowed allowed fits s event) (taken : layer.step op s event = some next) :
    Sound op Inv ctx next := by
  rcases Option.bind_eq_some_iff.mp taken with ⟨tried, here, rest⟩
  rcases Option.bind_eq_some_iff.mp rest with ⟨state, stepped, continued⟩
  have member := List.mem_of_getElem? here
  have holds : Inv tried.ctx state :=
    (once tried.ctx).preserved (sound.inv tried member) (isAllowed.1 tried here) stepped
  have adds := List.prefix_iff_eq_append.mp ((once tried.ctx).adds stepped)
  split at continued <;> rename_i added
  · cases continued
    rw [added, List.append_nil] at adds
    exact sound.silent here holds adds.symm
  · rename_i ec
    rcases Option.map_eq_some_iff.mp continued with ⟨⟨more, actions⟩, resumed, rfl⟩
    rw [added] at adds
    have bound := (once tried.ctx).once holds
    rw [← adds, List.length_append, List.length_singleton] at bound
    have silent : (op.machine tried.ctx).calls tried.op = [] :=
      List.length_eq_zero_iff.mp (by omega)
    have running : tried.outcome = none := by
      have recorded := silent.symm.trans (sound.recorded tried member)
      cases outcome : tried.outcome with
      | none => rfl
      | some outcome =>
          rw [outcome] at recorded
          cases recorded
    rcases sound.last here running with ⟨front, last, position⟩
    rw [silent, List.nil_append] at adds
    have whole := sound.called starts isAllowed.2 last running holds adds.symm resumed
    have attempts : s.attempts.set event.position
        { tried with op := state, outcome := some ⟨ec, op.connection state⟩ } ++ more =
          front ++ { tried with op := state, outcome := some ⟨ec, op.connection state⟩ } ::
            more := by
      rw [last, position, List.set_append_right _ _ (Nat.le_refl _), Nat.sub_self,
        List.set_cons_zero, List.append_assoc, List.singleton_append]
    rw [← attempts] at whole
    exact whole
  · cases continued

/-- A run calls its handler once. -/
theorem handled_operationInitiator (outcomes : Nat → Outcome κ) (inline : Nat → Bool) (ctx : χ)
    (i : Nat) :
    ∃ n, (layer.operationInitiator (perform outcomes inline) ctx i invoke).trace.filterMap
      Action.handled? = [((outcomes n).ec, (outcomes n).conn)] :=
  ⟨_, (layer.initiateOperation_answers (layer.basicContext i ctx) (perform_answers outcomes inline)
    layer.getFirstTry i).handled invoke⟩

theorem Sound.pending_eq_nil (sound : Sound op Inv ctx s)
    (isOver : ∀ tried ∈ s.attempts, tried.outcome ≠ none) (outcomes : Nat → Outcome κ)
    (inline : Nat → Bool) : pending layer s.held outcomes inline s.number s.known = [] := by
  rcases List.eq_nil_or_concat s.attempts with none | ⟨front, last, same⟩
  · exact absurd none sound.nonempty
  · rw [List.concat_eq_append] at same
    have ended : last.outcome ≠ none :=
      isOver last (same ▸ List.mem_append_right _ (List.mem_singleton_self last))
    rw [Attempts.known, same, List.map_append, List.map_singleton,
      pending_append (List.cons_ne_nil _ _), pending_of_over (Option.isSome_iff_ne_none.mpr ended),
      pending]

/-- Attempts whose machines are at rest are over. -/
theorem Sound.isOver (once : ∀ ctx, (op.machine ctx).CallsOnce (allowed ctx) (Inv ctx))
    (sound : Sound op Inv ctx s)
    (atRest : ∀ tried ∈ s.attempts, (op.machine tried.ctx).atRest tried.op) :
    ∀ tried ∈ s.attempts, tried.outcome ≠ none := by
  intro tried member none
  have called := (once tried.ctx).called (sound.inv tried member) (atRest tried member)
  rw [sound.recorded tried member, none] at called
  exact called rfl

variable (op) in
/-- What is observable of the attempts is the beginning of a run of the strategy
over outcomes that the machines have had as far as they have called, and the whole
run when all machines are at rest. -/
structure Refines (ctx : χ) (s : Attempts layer σ) : Prop where
  recorded : ∀ tried ∈ s.attempts, Recorded op tried
  sequential : Sequential s.known
  initiated : s.trace.filterMap Action.initiated? = s.attempts.map fun tried => tried.ctx
  once : (layer.handled s).length ≤ 1
  run : ∃ outcomes inline, Agree outcomes inline s.number s.known ∧
    s.trace <+: (layer.operationInitiator (perform outcomes inline) ctx s.number invoke).trace ∧
    ((∀ tried ∈ s.attempts, (op.machine tried.ctx).atRest tried.op) →
      s.trace = (layer.operationInitiator (perform outcomes inline) ctx s.number invoke).trace ∧
      ∃ ec conn, layer.handled s = [(ec, conn)])

/-- There are no more attempts than tries. -/
theorem Refines.length_le (refines : Refines op ctx s) : s.attempts.length ≤ layer.limit := by
  obtain ⟨outcomes, inline, -, begins, -⟩ := refines.run
  have answers := layer.initiateOperation_answers (layer.basicContext s.number ctx)
    (perform_answers outcomes inline) layer.getFirstTry s.number
  have initiated : (layer.operationInitiator (perform outcomes inline) ctx s.number
      invoke).trace.filterMap Action.initiated? =
        layer.madeWith outcomes (fun ctx _ => [ctx]) ctx s.number :=
    (answers.initiated invoke).trans (List.append_nil _)
  have fewer := (begins.filterMap Action.initiated?).length_le
  rw [refines.initiated, List.length_map, initiated] at fewer
  have bound : (layer.madeWith outcomes (fun ctx _ => [ctx]) ctx s.number).length ≤
      1 * layer.limit := layer.length_madeWith_le (fun _ _ => Nat.le_refl 1) ctx s.number
  rw [Nat.one_mul] at bound
  exact fewer.trans bound

theorem Sound.run (once : ∀ ctx, (op.machine ctx).CallsOnce (allowed ctx) (Inv ctx))
    (sound : Sound op Inv ctx s) : Refines op ctx s := by
  obtain ⟨outcomes, inline, agree⟩ := exists_agree s.number s.known
  have whole := sound.refines outcomes inline agree
  have isPrefix : s.trace <+:
      (layer.operationInitiator (perform outcomes inline) ctx s.number invoke).trace := by
    rw [whole]
    exact List.prefix_append _ _
  obtain ⟨n, handled⟩ := layer.handled_operationInitiator outcomes inline ctx s.number
  refine ⟨sound.recorded, sound.sequential, sound.initiated, ?_, outcomes, inline, agree, isPrefix,
    fun atRest => ?_⟩
  · have atMost := (isPrefix.filterMap Action.handled?).length_le
    rw [handled] at atMost
    exact atMost
  · rw [sound.pending_eq_nil (sound.isOver once atRest), List.append_nil] at whole
    refine ⟨whole.symm, (outcomes n).ec, (outcomes n).conn, ?_⟩
    rw [← handled, whole]
    rfl

/-- An operation under a strategy calls its handler once, when the operation
does. -/
theorem under_callsOnce (once : ∀ ctx, (op.machine ctx).CallsOnce (allowed ctx) (Inv ctx))
    (starts : ∀ {ctx input state}, fits ctx input → op.start ctx input = some state → Inv ctx state)
    (ctx : χ) :
    ((layer.under op).machine ctx).CallsOnce (Allowed allowed fits) (Sound op Inv ctx) where
  preserved sound isAllowed taken := sound.step once starts isAllowed taken
  adds {s event next} taken := by
    apply List.IsPrefix.map
    apply List.IsPrefix.filterMap
    rcases Option.bind_eq_some_iff.mp taken with ⟨tried, here, rest⟩
    rcases Option.bind_eq_some_iff.mp rest with ⟨state, stepped, continued⟩
    split at continued
    · cases continued
      exact List.prefix_rfl
    · rcases Option.map_eq_some_iff.mp continued with ⟨⟨more, actions⟩, resumed, rfl⟩
      exact List.prefix_append _ _
    · cases continued
  once sound := by
    rw [under, List.length_map]
    exact (sound.run once).once
  called {s} sound atRest := by
    obtain ⟨outcomes, inline, -, -, whole⟩ := (sound.run once).run
    obtain ⟨ec, conn, handled⟩ := (whole atRest).2
    show (layer.handled s).map Prod.fst ≠ []
    rw [handled]
    exact List.cons_ne_nil _ _

theorem under_starts
    (starts : ∀ {ctx input state}, fits ctx input → op.start ctx input = some state → Inv ctx state)
    {numbered : Nat × (Nat → ω)} (fit : ∀ ctx i, fits ctx (numbered.2 i))
    (started : (layer.under op).start ctx numbered = some s) : Sound op Inv ctx s := by
  have begun : layer.start op numbered.2 ctx numbered.1 = some s := started
  exact start_sound starts fit begun

/-- Every run of an operation under a strategy. -/
theorem refines_of_reachable (once : ∀ ctx, (op.machine ctx).CallsOnce (allowed ctx) (Inv ctx))
    (starts : ∀ {ctx input state}, fits ctx input → op.start ctx input = some state → Inv ctx state)
    (fit : ∀ ctx i, fits ctx (inputs i)) {number : Nat} {begun : Attempts layer σ}
    (started : layer.start op inputs ctx number = some begun)
    (reachable : Reachable (layer.step op) (Allowed allowed fits) begun s) :
    Refines op ctx s ∧ ∀ tried ∈ s.attempts, Inv tried.ctx tried.op := by
  have sound : Sound op Inv ctx s :=
    reachable.invariant (start_sound starts fit started) fun _ _ _ sound isAllowed taken =>
      sound.step once starts isAllowed taken
  exact ⟨sound.run once, sound.inv⟩

end Sound

end Layer

end Bozo.Failover
