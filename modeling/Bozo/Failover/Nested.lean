import Bozo.Bytes.Layout
import Bozo.Failover.Strategy

/-!
# Strategies on top of each other

An operation under a failover strategy is an operation again, and may be put
under another one: a retry for each role, or a fallback for each retry.  The
outer strategy sees the run of the inner one as a single try.

Here an operation is its initiator, which is called with a context and a handler,
and the handler is called with the outcome: inside the initiator when the
operation completes there, and later otherwise.  The attempts of the operation at
the bottom are numbered in the order in which they are made.
-/

namespace Bozo.Failover

open Bozo.Bytes.Layout

universe u v w

variable {τ : Type u} {χ : Type w} {κ : Type v}

/-- What a call does until it returns, and what is done in its name later. -/
structure Effects (α : Type u) where
  now : List α
  later : List α

def Effects.trace {α : Type u} (effects : Effects α) : List α :=
  effects.now ++ effects.later

/-- An action of a strategy, with the contexts of its tries. -/
def Action.map (context : τ → χ) : Action τ κ → Action χ κ
  | .initiate current => .initiate (context current)
  | .notify ec conn next => .notify ec conn (context next)
  | .close conn => .close conn
  | .handle ec conn => .handle ec conn

/-- A handler, told which attempt would be the next one. -/
abbrev Handler (χ : Type w) (κ : Type v) :=
  Outcome κ → Nat → Effects (Action χ κ)

/-- An asynchronous operation: what its initiator does with a context when the
next attempt has a given number. -/
abbrev Initiator (χ : Type w) (κ : Type v) :=
  χ → Nat → Handler χ κ → Effects (Action χ κ)

/-- The operation at the bottom, by the outcomes of its attempts and whether
they complete inside their initiation. -/
def perform (outcomes : Nat → Outcome κ) (inline : Nat → Bool) : Initiator χ κ :=
  fun ctx i handler =>
    let rest := handler (outcomes i) (i + 1)
    if inline i then
      ⟨.initiate ctx :: rest.now, rest.later⟩
    else
      ⟨[.initiate ctx], rest.now ++ rest.later⟩

/-- The handler of the user. -/
def invoke : Handler χ κ :=
  fun outcome _ => ⟨[.handle outcome.ec outcome.conn], []⟩

/-- A strategy that an operation is put under.  Its tries hold the context that
the first one is made with and give the operation one of their own; both depend
on the clock, which is read before the attempt of a number. -/
structure Layer (χ : Type w) (κ : Type v) where
  Try : Type
  strategy : Strategy Try κ
  getFirstTry : Try
  basicContext : Nat → χ → χ
  getTryContext : Try → Nat → χ → χ
  triesLeft_pos : ∀ {current ec conn next},
    (strategy.initiateNextTry current ec conn).next = some next → 0 < strategy.triesLeft next

namespace Layer

variable (layer : Layer χ κ) (op : Initiator χ κ) (held : χ)

/-- `continuation::operator()`. -/
def continuation (current : layer.Try) (handler : Handler χ κ) (outcome : Outcome κ) (i : Nat) :
    Effects (Action χ κ) :=
  if outcome.ec.failed then
    let given := layer.strategy.initiateNextTry current outcome.ec outcome.conn
    let before := given.before.map (Action.map fun next => layer.getTryContext next i held)
    let after := given.after.map (Action.map fun next => layer.getTryContext next i held)
    match _ : given.next with
    | some next =>
        let rest := op (layer.getTryContext next i held) i
          fun outcome i => continuation next handler outcome i
        ⟨before ++ rest.now ++ after, rest.later⟩
    | none =>
        let rest := handler outcome i
        ⟨before ++ after ++ rest.now, rest.later⟩
  else
    handler outcome i
termination_by layer.strategy.triesLeft current
decreasing_by exact layer.strategy.triesLeft_lt (by assumption)

/-- `initiate_operation`. -/
def initiateOperation (current : layer.Try) : Nat → Handler χ κ → Effects (Action χ κ) :=
  fun i handler =>
    op (layer.getTryContext current i held) i (layer.continuation op held current handler)

/-- `operation_initiator::operator()`. -/
def operationInitiator : Initiator χ κ :=
  fun ctx i handler =>
    layer.initiateOperation op (layer.basicContext i ctx) layer.getFirstTry i handler

end Layer

/-- `op[s1][s2]...`: the first strategy of the list is put on the operation
first. -/
def nest (layers : List (Layer χ κ)) (op : Initiator χ κ) : Initiator χ κ :=
  layers.foldl (fun op layer => layer.operationInitiator op) op

/-! ## One call of an operation -/

/-- A call of an operation makes attempts with some contexts, closes some
connections, and calls its handler once, with the outcome of the last attempt.
All attempts before that one have failed. -/
structure Answers (outcomes : Nat → Outcome κ) (call : Handler χ κ → Effects (Action χ κ))
    (i : Nat) (made : List χ) (closed : List κ) : Prop where
  made_ne : made ≠ []
  failed : ∀ j, i ≤ j → j + 1 < i + made.length → (outcomes j).ec.failed = true
  initiated : ∀ handler, (call handler).trace.filterMap Action.initiated? =
    made ++ (handler (outcomes (i + made.length - 1)) (i + made.length)).trace.filterMap
      Action.initiated?
  handled : ∀ handler, (call handler).trace.filterMap Action.handled? =
    (handler (outcomes (i + made.length - 1)) (i + made.length)).trace.filterMap Action.handled?
  closed : ∀ handler, ((call handler).trace.filterMap Action.closed?).Perm
    (closed ++ (handler (outcomes (i + made.length - 1)) (i + made.length)).trace.filterMap
      Action.closed?)

theorem perform_answers (outcomes : Nat → Outcome κ) (inline : Nat → Bool) (ctx : χ) (i : Nat) :
    Answers outcomes (perform outcomes inline ctx i) i [ctx] [] := by
  have trace : ∀ handler : Handler χ κ, (perform outcomes inline ctx i handler).trace =
      .initiate ctx :: (handler (outcomes i) (i + 1)).trace := by
    intro handler
    unfold perform Effects.trace
    cases inline i <;> rfl
  constructor
  · exact List.cons_ne_nil _ _
  · intro j first last
    simp only [List.length_singleton] at last
    omega
  · intro handler
    rw [trace]
    rfl
  · intro handler
    rw [trace]
    rfl
  · intro handler
    rw [trace]
    exact .rfl

section Sequences

variable {outcomes : Nat → Outcome κ} {call another : Handler χ κ → Effects (Action χ κ)}
  {continuation : Handler χ κ → Handler χ κ} {i : Nat} {made others : List χ}
  {closed behind : List κ}

theorem initiated_map_close (conns : List κ) :
    (conns.map (.close : κ → Action χ κ)).filterMap Action.initiated? = [] := by
  induction conns with
  | nil => rfl
  | cons conn conns ih => exact ih

theorem handled_map_close (conns : List κ) :
    (conns.map (.close : κ → Action χ κ)).filterMap Action.handled? = [] := by
  induction conns with
  | nil => rfl
  | cons conn conns ih => exact ih

theorem closed_map_close (conns : List κ) :
    (conns.map (.close : κ → Action χ κ)).filterMap Action.closed? = conns := by
  induction conns with
  | nil => rfl
  | cons conn conns ih => exact congrArg (conn :: ·) ih

/-- A continuation that closes connections and calls the handler ends a call. -/
theorem Answers.last (here : Answers outcomes call i made closed) {closes : List κ}
    (trace : ∀ handler,
      (continuation handler (outcomes (i + made.length - 1)) (i + made.length)).trace =
        closes.map .close ++ (handler (outcomes (i + made.length - 1)) (i + made.length)).trace) :
    Answers outcomes (fun handler => call (continuation handler)) i made (closed ++ closes) := by
  constructor
  · exact here.made_ne
  · exact here.failed
  · intro handler
    rw [here.initiated, trace, List.filterMap_append, initiated_map_close, List.nil_append]
  · intro handler
    rw [here.handled, trace, List.filterMap_append, handled_map_close, List.nil_append]
  · intro handler
    have whole := here.closed (continuation handler)
    rw [trace, List.filterMap_append, closed_map_close, ← List.append_assoc] at whole
    exact whole

/-- A continuation that makes another call after a failure puts the calls one
behind the other. -/
theorem Answers.next (here : Answers outcomes call i made closed)
    (failed : (outcomes (i + made.length - 1)).ec.failed = true)
    (rest : Answers outcomes another (i + made.length) others behind) {closes : List κ} {ctx : χ}
    (trace : ∀ handler, ∃ early late, early ++ late = closes ∧
      (continuation handler (outcomes (i + made.length - 1)) (i + made.length)).trace =
        .notify (outcomes (i + made.length - 1)).ec (outcomes (i + made.length - 1)).conn ctx ::
          early.map .close ++ (another handler).now ++ late.map .close ++ (another handler).later) :
    Answers outcomes (fun handler => call (continuation handler)) i (made ++ others)
      (closed ++ closes ++ behind) := by
  have positive := List.length_pos_iff.mpr rest.made_ne
  have last_eq : i + (made ++ others).length - 1 = i + made.length + others.length - 1 := by
    rw [List.length_append, Nat.add_assoc]
  have next_eq : i + (made ++ others).length = i + made.length + others.length := by
    rw [List.length_append, Nat.add_assoc]
  constructor
  · exact fun none => here.made_ne (List.append_eq_nil_iff.mp none).1
  · intro j first later
    rw [next_eq] at later
    rcases Nat.lt_trichotomy (j + 1) (i + made.length) with inside | edge | outside
    · exact here.failed j first inside
    · have same : j = i + made.length - 1 := by omega
      exact same ▸ failed
    · exact rest.failed j (by omega) later
  · intro handler
    obtain ⟨early, late, -, trace⟩ := trace handler
    have seen : (continuation handler (outcomes (i + made.length - 1))
        (i + made.length)).trace.filterMap Action.initiated? =
          (another handler).trace.filterMap Action.initiated? := by
      rw [trace, Effects.trace]
      simp only [List.cons_append, List.filterMap_cons, Action.initiated?, List.filterMap_append,
        initiated_map_close, List.append_nil, List.nil_append]
    rw [here.initiated, seen, rest.initiated, last_eq, next_eq, List.append_assoc]
  · intro handler
    obtain ⟨early, late, -, trace⟩ := trace handler
    have seen : (continuation handler (outcomes (i + made.length - 1))
        (i + made.length)).trace.filterMap Action.handled? =
          (another handler).trace.filterMap Action.handled? := by
      rw [trace, Effects.trace]
      simp only [List.cons_append, List.filterMap_cons, Action.handled?, List.filterMap_append,
        handled_map_close, List.append_nil, List.nil_append]
    rw [here.handled, seen, rest.handled, last_eq, next_eq]
  · intro handler
    obtain ⟨early, late, closes_eq, trace⟩ := trace handler
    have others_eq := rest.closed handler
    rw [Effects.trace, List.filterMap_append] at others_eq
    have whole := here.closed (continuation handler)
    rw [trace] at whole
    simp only [List.cons_append, List.filterMap_cons, Action.closed?, List.filterMap_append,
      closed_map_close] at whole
    rw [last_eq, next_eq, ← closes_eq]
    refine whole.trans ?_
    simp only [List.append_assoc]
    refine List.Perm.append_left closed (List.Perm.append_left early ?_)
    refine (List.perm_append_comm_assoc _ _ _).trans (List.Perm.append_left late ?_)
    exact others_eq

end Sequences

/-! ## One strategy -/

namespace Layer

variable (layer : Layer χ κ) {op : Initiator χ κ} {held : χ} {current next : layer.Try}
  {handler : Handler χ κ} {outcome : Outcome κ} {i : Nat}

theorem deferCloseConnection_eq (failed : outcome.ec.failed = true) (close : Bool) :
    (deferCloseConnection close outcome.conn : List (Action τ κ)) =
      (outcome.closes close).map .close := by
  cases close <;> simp [deferCloseConnection, Outcome.closes, failed]

/-- A continuation that makes another try does so between what is done before and
afterwards. -/
theorem continuation_eq_of_next (failed : outcome.ec.failed = true)
    (again : (layer.strategy.initiateNextTry current outcome.ec outcome.conn).next = some next) :
    layer.continuation op held current handler outcome i =
      ⟨(layer.strategy.initiateNextTry current outcome.ec outcome.conn).before.map
          (Action.map fun next => layer.getTryContext next i held) ++
          (layer.initiateOperation op held next i handler).now ++
        (layer.strategy.initiateNextTry current outcome.ec outcome.conn).after.map
          (Action.map fun next => layer.getTryContext next i held),
        (layer.initiateOperation op held next i handler).later⟩ := by
  rw [continuation, if_pos failed]
  simp only
  split
  · rename_i other same
    rw [again] at same
    cases same
    rfl
  · rename_i none
    rw [again] at none
    cases none

/-- Without another try the handler is called behind all that is done. -/
theorem continuation_eq_of_last (failed : outcome.ec.failed = true)
    (last : (layer.strategy.initiateNextTry current outcome.ec outcome.conn).next = none) :
    layer.continuation op held current handler outcome i =
      ⟨(layer.strategy.initiateNextTry current outcome.ec outcome.conn).before.map
          (Action.map fun next => layer.getTryContext next i held) ++
        (layer.strategy.initiateNextTry current outcome.ec outcome.conn).after.map
          (Action.map fun next => layer.getTryContext next i held) ++
        (handler outcome i).now, (handler outcome i).later⟩ := by
  rw [continuation, if_pos failed]
  simp only
  split
  · rename_i next again
    rw [last] at again
    cases again
  · rfl

/-- Without another try the connection is closed and the handler called. -/
theorem continuation_of_last (last : layer.strategy.next current outcome = none) :
    (layer.continuation op held current handler outcome i).trace =
      (outcome.closes layer.strategy.closeConnection).map .close ++
        (handler outcome i).trace := by
  by_cases failed : outcome.ec.failed = true
  · simp only [Strategy.next, failed, if_true] at last
    obtain ⟨early, before, closes⟩ := layer.strategy.actions current outcome.ec outcome.conn
    rw [deferCloseConnection_eq failed] at closes
    rw [last, Option.map_none, Option.toList_none, List.nil_append] at before
    rw [layer.continuation_eq_of_last failed last]
    simp only [Effects.trace, ← List.map_append, before, closes, List.map_map, List.append_assoc]
    rfl
  · rw [continuation, if_neg failed]
    simp [Outcome.closes, failed]

/-- Another try is notified of and made; the connection is closed before it or
after its initiation. -/
theorem continuation_of_next (again : layer.strategy.next current outcome = some next) :
    ∃ early late, early ++ late = outcome.closes layer.strategy.closeConnection ∧
      (layer.continuation op held current handler outcome i).trace =
        .notify outcome.ec outcome.conn (layer.getTryContext next i held) :: early.map .close ++
          (layer.initiateOperation op held next i handler).now ++ late.map .close ++
            (layer.initiateOperation op held next i handler).later := by
  obtain ⟨failed, given⟩ := Strategy.next_eq_some again
  obtain ⟨early, before, closes⟩ := layer.strategy.actions current outcome.ec outcome.conn
  rw [deferCloseConnection_eq failed, List.append_eq_map_iff] at closes
  obtain ⟨first, second, split_eq, rfl, after⟩ := closes
  refine ⟨first, second, split_eq.symm, ?_⟩
  rw [layer.continuation_eq_of_next failed given]
  simp only [Effects.trace, before, given, ← after, List.map_append, List.map_map]
  rfl

/-! ## The tries of one strategy over an operation -/

section Tries

-- What a call of the operation below makes and closes.
variable (outcomes : Nat → Outcome κ) (made : χ → Nat → List χ) (closed : χ → Nat → List κ)
  (held : χ)

/-- The contexts that a try makes attempts with from the number `i` on. -/
def madeBy (current : layer.Try) (i : Nat) : List χ :=
  made (layer.getTryContext current i held) i

/-- The connections that are closed in a try. -/
def closedBy (current : layer.Try) (i : Nat) : List κ :=
  closed (layer.getTryContext current i held) i ++
    (outcomes (i + (layer.madeBy made held current i).length - 1)).closes
      layer.strategy.closeConnection

/-- The try behind one whose first attempt has the number `i`. -/
def nextTry (current : layer.Try) (i : Nat) : Option layer.Try :=
  layer.strategy.next current (outcomes (i + (layer.madeBy made held current i).length - 1))

/-- The tries with the numbers of their first attempts. -/
def tries (current : layer.Try) (i : Nat) : List (layer.Try × Nat) :=
  (current, i) ::
    match _ : layer.nextTry outcomes made held current i with
    | some next => tries next (i + (layer.madeBy made held current i).length)
    | none => []
termination_by layer.strategy.triesLeft current
decreasing_by exact layer.strategy.triesLeft_lt (Strategy.next_eq_some (by assumption)).2

variable {outcomes made closed held}

theorem tries_of_next
    (again : layer.nextTry outcomes made held current i = some next) :
    layer.tries outcomes made held current i =
      (current, i) :: layer.tries outcomes made held next
        (i + (layer.madeBy made held current i).length) := by
  rw [tries]
  split
  · rename_i other same
    rw [again] at same
    cases same
    rfl
  · rename_i none
    rw [again] at none
    cases none

theorem tries_of_last (last : layer.nextTry outcomes made held current i = none) :
    layer.tries outcomes made held current i = [(current, i)] := by
  rw [tries]
  split
  · rename_i other same
    rw [last] at same
    cases same
  · rfl

variable (outcomes made held) in
/-- Induction along the tries. -/
theorem induction {P : layer.Try → Nat → Prop}
    (step : ∀ current i, (∀ next, layer.nextTry outcomes made held current i = some next →
      P next (i + (layer.madeBy made held current i).length)) → P current i)
    (current : layer.Try) (i : Nat) : P current i := by
  induction left : layer.strategy.triesLeft current using Nat.strong_induction_on
    generalizing current i with
  | _ left ih =>
      subst left
      refine step current i fun next again => ?_
      exact ih _ (layer.strategy.triesLeft_lt (Strategy.next_eq_some again).2) next _ rfl

variable (held) in
/-- If every call of the operation below is answered, a run of tries is. -/
theorem initiateOperation_answers
    (answers : ∀ ctx i, Answers outcomes (op ctx i) i (made ctx i) (closed ctx i))
    (current : layer.Try) (i : Nat) :
    Answers outcomes (layer.initiateOperation op held current i) i
      ((layer.tries outcomes made held current i).flatMap fun current =>
        layer.madeBy made held current.1 current.2)
      ((layer.tries outcomes made held current i).flatMap fun current =>
        layer.closedBy outcomes made closed held current.1 current.2) := by
  induction current, i using layer.induction outcomes made held with
  | step current i ih =>
      have here := answers (layer.getTryContext current i held) i
      cases again : layer.nextTry outcomes made held current i with
      | none =>
          rw [layer.tries_of_last again, List.flatMap_singleton, List.flatMap_singleton]
          exact here.last fun handler => layer.continuation_of_last again
      | some next =>
          rw [layer.tries_of_next again, List.flatMap_cons, List.flatMap_cons]
          exact here.next (Strategy.next_eq_some again).1 (ih next again) fun handler =>
            layer.continuation_of_next again

variable (outcomes made held) in
/-- There are no more tries than the strategy has left. -/
theorem length_tries_le (current : layer.Try) (i : Nat) :
    (layer.tries outcomes made held current i).length ≤
      max 1 (layer.strategy.triesLeft current) := by
  induction current, i using layer.induction outcomes made held with
  | step current i ih =>
      cases again : layer.nextTry outcomes made held current i with
      | none =>
          rw [layer.tries_of_last again]
          exact Nat.le_max_left _ _
      | some next =>
          have others := ih next again
          have given := (Strategy.next_eq_some again).2
          have fewer := layer.strategy.triesLeft_lt given
          have left_pos := layer.triesLeft_pos given
          rw [layer.tries_of_next again, List.length_cons]
          omega

variable (made held) in
/-- The tries are the attempts of the strategy, each with the outcome of the
last attempt that was made in it. -/
theorem attempts_eq (outcomeOf : Nat → Outcome κ) (current : layer.Try) (i k : Nat)
    (outcomes_eq : ∀ j < (layer.tries outcomes made held current i).length,
      outcomeOf (k + j) = outcomes (i + offset
        ((layer.tries outcomes made held current i).map fun current =>
          (layer.madeBy made held current.1 current.2).length) (j + 1) - 1)) :
    (layer.strategy.attempts outcomeOf current k).map Prod.fst =
      (layer.tries outcomes made held current i).map Prod.fst := by
  induction current, i using layer.induction outcomes made held generalizing k with
  | step current i ih =>
      have first := outcomes_eq 0 (by rw [tries]; exact Nat.succ_pos _)
      cases again : layer.nextTry outcomes made held current i with
      | none =>
          rw [layer.tries_of_last again] at first ⊢
          rw [List.map_singleton, offset_cons_succ, offset_zero, Nat.add_zero, Nat.add_zero]
            at first
          have last : layer.strategy.next current (outcomeOf k) = none := by
            rw [first]
            exact again
          rw [Strategy.attempts_of_last last]
          rfl
      | some next =>
          rw [layer.tries_of_next again] at first outcomes_eq ⊢
          rw [List.map_cons, offset_cons_succ, offset_zero, Nat.add_zero, Nat.add_zero] at first
          have next_eq : layer.strategy.next current (outcomeOf k) = some next := by
            rw [first]
            exact again
          rw [Strategy.attempts_of_next next_eq, List.map_cons, List.map_cons]
          refine congrArg (current :: ·) (ih next again (k + 1) fun j inside => ?_)
          have here := outcomes_eq (j + 1) (Nat.succ_lt_succ inside)
          rw [List.map_cons, offset_cons_succ] at here
          rw [Nat.add_right_comm, Nat.add_assoc k, here, Nat.add_assoc i]

/-- Every attempt is made in one of the tries. -/
theorem exists_try (current : layer.Try) (i j : Nat) (first : i ≤ j)
    (last : j < i + ((layer.tries outcomes made held current i).flatMap fun current =>
      layer.madeBy made held current.1 current.2).length) :
    ∃ tried ∈ layer.tries outcomes made held current i, tried.2 ≤ j ∧
      j < tried.2 + (layer.madeBy made held tried.1 tried.2).length := by
  induction current, i using layer.induction outcomes made held with
  | step current i ih =>
      cases again : layer.nextTry outcomes made held current i with
      | none =>
          rw [layer.tries_of_last again, List.flatMap_singleton] at last
          rw [layer.tries_of_last again]
          exact ⟨(current, i), List.mem_cons_self, first, last⟩
      | some next =>
          simp only [layer.tries_of_next again, List.flatMap_cons, List.length_append] at last
          rw [layer.tries_of_next again]
          by_cases here : j < i + (layer.madeBy made held current i).length
          · exact ⟨(current, i), List.mem_cons_self, first, here⟩
          · obtain ⟨tried, member, inside⟩ := ih next again (by omega) (by omega)
            exact ⟨tried, List.mem_cons_of_mem _ member, inside⟩

end Tries

/-- The greatest number of tries. -/
def limit : Nat :=
  max 1 (layer.strategy.triesLeft layer.getFirstTry)

/-- The strategy leaves a part of the contexts as it is. -/
def Keeps {β : Type w} (view : χ → β) : Prop :=
  (∀ i ctx, view (layer.basicContext i ctx) = view ctx) ∧
    ∀ current i ctx, view (layer.getTryContext current i ctx) = view ctx

end Layer

end Bozo.Failover
