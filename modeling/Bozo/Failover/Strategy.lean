import Bozo.Error
import Mathlib.Data.List.Chain
import Mathlib.Tactic.Common

/-!
# Failover

An operation that is run under a failover strategy is initiated with a try.  Its
outcome is passed to a continuation, which asks the strategy for the next try
after an error and otherwise invokes the handler.  A run is recorded as the list
of the actions that are observable from outside.

A try that is initiated may complete before the initiation returns, so that its
continuation runs inside that of the try before.
-/

namespace Bozo.Failover

universe u v w

variable {τ : Type u} {κ : Type v}

/-- What a try ends with.  A connection that is null at some level is `none`. -/
structure Outcome (κ : Type v) where
  ec : ErrorCode
  conn : Option κ

/-- The connection that is closed after an outcome: that of a failure, under the
option to close it. -/
def Outcome.closes (close : Bool) (outcome : Outcome κ) : List κ :=
  if outcome.ec.failed ∧ close then outcome.conn.toList else []

/-- What is observable of a run. -/
inductive Action (τ : Type u) (κ : Type v)
  -- The operation is initiated with the context of a try.
  | initiate (current : τ)
  -- `on_retry` or `on_fallback` is called; only the latter is given the try.
  | notify (ec : ErrorCode) (conn : Option κ) (next : τ)
  | close (conn : κ)
  | handle (ec : ErrorCode) (conn : Option κ)

namespace Action

def initiated? : Action τ κ → Option τ
  | .initiate current => some current
  | _ => none

def notified? : Action τ κ → Option (ErrorCode × Option κ × τ)
  | .notify ec conn next => some (ec, conn, next)
  | _ => none

def closed? : Action τ κ → Option κ
  | .close conn => some conn
  | _ => none

def handled? : Action τ κ → Option (ErrorCode × Option κ)
  | .handle ec conn => some (ec, conn)
  | _ => none

end Action

/-- `defer_close_connection`: what the guard does when it is destroyed. -/
def deferCloseConnection (close : Bool) (conn : Option κ) : List (Action τ κ) :=
  if close then conn.toList.map .close else []

/-- What `initiate_next_try` does: the actions before the initiator is called,
the try that it is called with, and the actions afterwards. -/
structure NextTry (τ : Type u) (κ : Type v) where
  before : List (Action τ κ)
  next : Option τ
  after : List (Action τ κ)

/-- A failover strategy.  It notifies of the next try first, and closes the
connection before or after it has the next try initiated. -/
structure Strategy (τ : Type u) (κ : Type v) where
  initiateNextTry : τ → ErrorCode → Option κ → NextTry τ κ
  closeConnection : Bool
  actions : ∀ current ec conn, ∃ early,
    (initiateNextTry current ec conn).before =
        ((initiateNextTry current ec conn).next.map (.notify ec conn)).toList ++ early ∧
      early ++ (initiateNextTry current ec conn).after = deferCloseConnection closeConnection conn
  triesLeft : τ → Nat
  triesLeft_lt : ∀ {current ec conn next},
    (initiateNextTry current ec conn).next = some next → triesLeft next < triesLeft current

namespace Strategy

variable (s : Strategy τ κ) (outcomes : Nat → Outcome κ) (inline : Nat → Bool)

/-! ## Runs -/

/-- `continuation::operator()` for the try number `i`, and what follows. -/
def continuation (current : τ) (i : Nat) : List (Action τ κ) :=
  if (outcomes i).ec.failed then
    let given := s.initiateNextTry current (outcomes i).ec (outcomes i).conn
    match again : given.next with
    | some next =>
        let rest := continuation next (i + 1)
        -- A try that completes inside its initiation is over before the guard
        -- of this one is destroyed.
        given.before ++ .initiate next ::
          if inline (i + 1) then rest ++ given.after else given.after ++ rest
    | none => given.before ++ given.after ++ [.handle (outcomes i).ec (outcomes i).conn]
  else
    [.handle (outcomes i).ec (outcomes i).conn]
termination_by s.triesLeft current
decreasing_by exact s.triesLeft_lt again

/-- `operation_initiator::operator()` with the first try. -/
def run (first : τ) : List (Action τ κ) :=
  .initiate first :: s.continuation outcomes inline first 1

/-- The try that follows on an outcome. -/
def next (current : τ) (outcome : Outcome κ) : Option τ :=
  if outcome.ec.failed then (s.initiateNextTry current outcome.ec outcome.conn).next else none

theorem next_eq_some {s : Strategy τ κ} {current next : τ} {outcome : Outcome κ}
    (again : s.next current outcome = some next) :
    outcome.ec.failed = true ∧
      (s.initiateNextTry current outcome.ec outcome.conn).next = some next := by
  unfold Strategy.next at again
  split at again
  · exact ⟨‹_›, again⟩
  · cases again

/-- The tries of a run with their outcomes. -/
def attempts (current : τ) (i : Nat) : List (τ × Outcome κ) :=
  (current, outcomes i) ::
    match again : s.next current (outcomes i) with
    | some next => attempts next (i + 1)
    | none => []
termination_by s.triesLeft current
decreasing_by exact s.triesLeft_lt (next_eq_some again).2

/-- Induction along a run. -/
theorem induction {P : τ → Nat → Prop}
    (step : ∀ current i, (∀ next, s.next current (outcomes i) = some next → P next (i + 1)) →
      P current i) (current : τ) (i : Nat) : P current i := by
  induction left : s.triesLeft current using Nat.strong_induction_on generalizing current i with
  | _ left ih =>
      subst left
      refine step current i fun next again => ?_
      exact ih _ (s.triesLeft_lt (next_eq_some again).2) next (i + 1) rfl

theorem head?_attempts (current : τ) (i : Nat) :
    (s.attempts outcomes current i).head? = some (current, outcomes i) := by
  rw [attempts]
  rfl

theorem attempts_ne_nil (current : τ) (i : Nat) : s.attempts outcomes current i ≠ [] := by
  rw [attempts]
  exact List.cons_ne_nil _ _

variable {s outcomes} {current : τ} {i : Nat}

theorem attempts_of_next {next : τ} (again : s.next current (outcomes i) = some next) :
    s.attempts outcomes current i =
      (current, outcomes i) :: s.attempts outcomes next (i + 1) := by
  rw [attempts]
  split
  · rename_i other same
    rw [again] at same
    cases same
    rfl
  · rename_i none
    rw [again] at none
    cases none

theorem attempts_of_last (last : s.next current (outcomes i) = none) :
    s.attempts outcomes current i = [(current, outcomes i)] := by
  rw [attempts]
  split
  · rename_i other same
    rw [last] at same
    cases same
  · rfl

section Outcomes

variable (s outcomes)

/-- The outcomes of the tries are taken one after another. -/
theorem map_snd_attempts (current : τ) (i : Nat) :
    (s.attempts outcomes current i).map Prod.snd =
      (List.range' i (s.attempts outcomes current i).length).map outcomes := by
  induction current, i using Strategy.induction s outcomes with
  | step current i ih =>
      cases again : s.next current (outcomes i) with
      | none => simp [attempts_of_last again]
      | some next => simp [attempts_of_next again, List.range'_succ, ih next again]

theorem getLast?_attempts (current : τ) (i : Nat) :
    (s.attempts outcomes current i).getLast?.map Prod.snd =
      some (outcomes (i + (s.attempts outcomes current i).length - 1)) := by
  have nonempty : (s.attempts outcomes current i).length ≠ 0 := by
    rw [ne_eq, List.length_eq_zero_iff]
    exact s.attempts_ne_nil outcomes current i
  rw [← List.getLast?_map, map_snd_attempts, List.getLast?_map, List.getLast?_range',
    if_neg nonempty]
  rfl

/-- Each try follows on the outcome of the one before, and none follows on that
of the last. -/
theorem isChain_attempts (current : τ) (i : Nat) :
    (s.attempts outcomes current i).IsChain
        (fun failed next => s.next failed.1 failed.2 = some next.1) ∧
      ∀ last ∈ (s.attempts outcomes current i).getLast?, s.next last.1 last.2 = none := by
  induction current, i using Strategy.induction s outcomes with
  | step current i ih =>
      cases again : s.next current (outcomes i) with
      | none =>
          rw [attempts_of_last again]
          refine ⟨.singleton _, ?_⟩
          rintro _ ⟨⟩
          exact again
      | some next =>
          obtain ⟨chain, ends⟩ := ih next again
          rw [attempts_of_next again]
          have head := s.head?_attempts outcomes next (i + 1)
          cases rest : s.attempts outcomes next (i + 1) with
          | nil => exact (s.attempts_ne_nil outcomes next (i + 1) rest).elim
          | cons second rest' =>
              rw [rest] at chain ends head
              cases head
              rw [List.getLast?_cons_cons]
              exact ⟨.cons_cons again chain, ends⟩

end Outcomes

/-! ## What a run does -/

theorem continuation_of_last (last : s.next current (outcomes i) = none) :
    ∃ closed, s.continuation outcomes inline current i =
        closed ++ [.handle (outcomes i).ec (outcomes i).conn] ∧
      closed = if (outcomes i).ec.failed then
        deferCloseConnection s.closeConnection (outcomes i).conn else [] := by
  rw [continuation]
  by_cases failed : (outcomes i).ec.failed = true
  · simp only [Strategy.next, failed, if_true] at last
    obtain ⟨early, before, closed⟩ := s.actions current (outcomes i).ec (outcomes i).conn
    simp only [failed, if_true]
    split
    · rename_i next again
      rw [last] at again
      cases again
    · rw [last] at before
      refine ⟨_, rfl, ?_⟩
      rw [before, ← closed]
      rfl
  · simp only [failed]
    exact ⟨[], rfl, rfl⟩

theorem continuation_of_next {next : τ} (again : s.next current (outcomes i) = some next) :
    (outcomes i).ec.failed = true ∧
      ∃ early late,
        early ++ late = deferCloseConnection s.closeConnection (outcomes i).conn ∧
        s.continuation outcomes inline current i =
          .notify (outcomes i).ec (outcomes i).conn next :: early ++ .initiate next ::
            if inline (i + 1) then s.continuation outcomes inline next (i + 1) ++ late
            else late ++ s.continuation outcomes inline next (i + 1) := by
  obtain ⟨failed, given⟩ := next_eq_some again
  obtain ⟨early, before, closed⟩ := s.actions current (outcomes i).ec (outcomes i).conn
  refine ⟨failed, early, _, closed, ?_⟩
  rw [continuation]
  simp only [failed, if_true]
  split
  · rename_i other same
    rw [given] at same
    cases same
    rw [before, given]
    rfl
  · rename_i none
    rw [given] at none
    cases none

/-- The actions of a run other than closing connections. -/
def script : List (τ × Outcome κ) → List (Action τ κ)
  | [] => []
  | [(_, outcome)] => [.handle outcome.ec outcome.conn]
  | (_, outcome) :: (next, outcome') :: rest =>
      .notify outcome.ec outcome.conn next :: .initiate next :: script ((next, outcome') :: rest)

theorem script_attempts_of_next {next : τ} (again : s.next current (outcomes i) = some next) :
    script (s.attempts outcomes current i) =
      .notify (outcomes i).ec (outcomes i).conn next :: .initiate next ::
        script (s.attempts outcomes next (i + 1)) := by
  rw [attempts_of_next again]
  cases rest : s.attempts outcomes next (i + 1) with
  | nil => exact (s.attempts_ne_nil outcomes next (i + 1) rest).elim
  | cons first rest =>
      have head := s.head?_attempts outcomes next (i + 1)
      rw [rest] at head
      cases head
      rfl

/-- A view of the actions that does not see connections being closed sees the
script, whether tries complete inside their initiation or not. -/
theorem filterMap_continuation {β : Type w} (view : Action τ κ → Option β)
    (silent : ∀ conn, view (.close conn) = none) (current : τ) (i : Nat) :
    (s.continuation outcomes inline current i).filterMap view =
      (script (s.attempts outcomes current i)).filterMap view := by
  have unseen : ∀ close (conn : Option κ),
      (deferCloseConnection close conn : List (Action τ κ)).filterMap view = [] := by
    intro close conn
    cases close <;> cases conn <;> simp [deferCloseConnection, silent]
  induction current, i using Strategy.induction s outcomes with
  | step current i ih =>
      cases again : s.next current (outcomes i) with
      | none =>
          obtain ⟨closed, trace, rfl⟩ := continuation_of_last inline again
          rw [trace, attempts_of_last again, List.filterMap_append]
          split <;> simp [script, unseen]
      | some next =>
          obtain ⟨-, early, late, closed, trace⟩ := continuation_of_next inline again
          have none := unseen s.closeConnection (outcomes i).conn
          rw [← closed, List.filterMap_append, List.append_eq_nil_iff] at none
          rw [trace, script_attempts_of_next again]
          split <;>
            simp [List.filterMap_append, List.filterMap_cons, none.1, none.2, ih next again]

theorem initiated_script (first : τ × Outcome κ) (rest : List (τ × Outcome κ)) :
    (script (first :: rest)).filterMap Action.initiated? = rest.map Prod.fst := by
  induction rest generalizing first with
  | nil => rfl
  | cons second rest ih => simp [script, Action.initiated?, List.filterMap_cons, ih second]

theorem handled_script (tries : List (τ × Outcome κ)) :
    (script tries).filterMap Action.handled? =
      tries.getLast?.toList.map fun last => (last.2.ec, last.2.conn) := by
  fun_induction script tries with
  | case1 => rfl
  | case2 => rfl
  | case3 current outcome next outcome' rest ih =>
      simp only [Action.handled?, List.filterMap_cons, ih, List.getLast?_cons_cons]

/-- Each try that is followed by another, with the one that follows. -/
def fallbacks (tries : List (τ × Outcome κ)) : List (ErrorCode × Option κ × τ) :=
  tries.zipWith (fun failed next => (failed.2.ec, failed.2.conn, next.1)) tries.tail

theorem map_fallbacks (tries : List (τ × Outcome κ)) :
    (fallbacks tries).map (fun fallback => (fallback.1, fallback.2.1)) =
      (tries.map Prod.snd).dropLast.map fun failed => (failed.ec, failed.conn) := by
  induction tries with
  | nil => rfl
  | cons first rest ih =>
      cases rest with
      | nil => rfl
      | cons second rest =>
          rw [List.map_cons, List.map_cons, List.dropLast_cons_cons, List.map_cons, ← List.map_cons,
            ← ih]
          rfl

theorem notified_script (tries : List (τ × Outcome κ)) :
    (script tries).filterMap Action.notified? = fallbacks tries := by
  fun_induction script tries with
  | case1 => rfl
  | case2 => rfl
  | case3 current outcome next outcome' rest ih =>
      simp only [Action.notified?, List.filterMap_cons, ih]
      rfl

theorem closed_deferCloseConnection (close : Bool) (conn : Option κ) :
    (deferCloseConnection close conn : List (Action τ κ)).filterMap Action.closed? =
      if close then conn.toList else [] := by
  cases close <;> cases conn <;> rfl

variable (s outcomes)

/-- The operation is initiated once for each try, in order. -/
theorem initiated_run (first : τ) :
    (s.run outcomes inline first).filterMap Action.initiated? =
      (s.attempts outcomes first 1).map Prod.fst := by
  have view : (s.continuation outcomes inline first 1).filterMap Action.initiated? = _ :=
    filterMap_continuation inline Action.initiated? (fun _ => rfl) first 1
  cases tries : s.attempts outcomes first 1 with
  | nil => exact (s.attempts_ne_nil outcomes first 1 tries).elim
  | cons head rest =>
      have same := s.head?_attempts outcomes first 1
      rw [tries] at view same
      rw [initiated_script] at view
      cases same
      simp [run, Action.initiated?, view]

/-- The handler is invoked once, with the outcome of the last try. -/
theorem handled_run (first : τ) :
    (s.run outcomes inline first).filterMap Action.handled? =
      [((outcomes (s.attempts outcomes first 1).length).ec,
        (outcomes (s.attempts outcomes first 1).length).conn)] := by
  have view : (s.run outcomes inline first).filterMap Action.handled? =
      (script (s.attempts outcomes first 1)).filterMap Action.handled? :=
    filterMap_continuation inline _ (fun _ => rfl) first 1
  obtain ⟨last, isLast, same⟩ :=
    Option.map_eq_some_iff.mp (s.getLast?_attempts outcomes first 1)
  rw [Nat.add_sub_cancel_left] at same
  rw [view, handled_script, isLast, ← same]
  rfl

/-- The callback is called once for each try that is followed by another. -/
theorem notified_run (first : τ) :
    (s.run outcomes inline first).filterMap Action.notified? =
      fallbacks (s.attempts outcomes first 1) := by
  rw [← notified_script, ← filterMap_continuation inline _ fun _ => rfl]
  rfl

theorem closed_continuation (current : τ) (i : Nat) :
    ((s.continuation outcomes inline current i).filterMap Action.closed?).Perm
      (((s.attempts outcomes current i).map Prod.snd).flatMap
        (Outcome.closes s.closeConnection)) := by
  induction current, i using Strategy.induction s outcomes with
  | step current i ih =>
      cases again : s.next current (outcomes i) with
      | none =>
          obtain ⟨closed, trace, rfl⟩ := continuation_of_last inline again
          rw [trace, attempts_of_last again, List.filterMap_append]
          have unseen : [Action.handle (τ := τ) (outcomes i).ec (outcomes i).conn].filterMap
              Action.closed? = [] := rfl
          by_cases failed : (outcomes i).ec.failed = true
          · simp [unseen, failed, Outcome.closes, closed_deferCloseConnection]
          · simp [unseen, failed, Outcome.closes]
      | some next =>
          obtain ⟨failed, early, late, closed, trace⟩ := continuation_of_next inline again
          have here : (outcomes i).closes s.closeConnection =
              early.filterMap Action.closed? ++ late.filterMap Action.closed? := by
            rw [← List.filterMap_append, closed, closed_deferCloseConnection]
            simp [Outcome.closes, failed]
          rw [trace, attempts_of_next again, List.map_cons, List.flatMap_cons, here]
          split
          · simp only [List.cons_append, List.filterMap_cons, List.filterMap_append,
              Action.closed?, List.append_assoc]
            exact (List.perm_append_comm.trans ((ih next again).append_left _)).append_left _
          · simp only [List.cons_append, List.filterMap_cons, List.filterMap_append,
              Action.closed?, List.append_assoc]
            exact ((ih next again).append_left _).append_left _

theorem closed_run (first : τ) :
    ((s.run outcomes inline first).filterMap Action.closed?).Perm
      ((List.range' 1 (s.attempts outcomes first 1).length).flatMap
        fun i => (outcomes i).closes s.closeConnection) := by
  have closed : ((s.run outcomes inline first).filterMap Action.closed?).Perm _ :=
    s.closed_continuation outcomes inline first 1
  rw [map_snd_attempts, List.flatMap_map] at closed
  exact closed

/-- The connections of the failed tries, each once. -/
def failedConnections (outcomes : Nat → Outcome κ) (tries : Nat) : List κ :=
  (List.range' 1 tries).flatMap fun i =>
    if (outcomes i).ec.failed then (outcomes i).conn.toList else []

/-- Under the option to close connections, those of the failed tries are
closed. -/
theorem closed_run_of_close (first : τ) (close : s.closeConnection = true) :
    ((s.run outcomes inline first).filterMap Action.closed?).Perm
      (failedConnections outcomes (s.attempts outcomes first 1).length) := by
  have closed := s.closed_run outcomes inline first
  simpa only [failedConnections, Outcome.closes, close, and_true] using closed

theorem closed_run_of_keep (first : τ) (keep : s.closeConnection = false) :
    (s.run outcomes inline first).filterMap Action.closed? = [] := by
  have closed := s.closed_run outcomes inline first
  have none : ((List.range' 1 (s.attempts outcomes first 1).length).flatMap
      fun i => (outcomes i).closes s.closeConnection) = [] := by
    rw [List.flatMap_eq_nil_iff]
    intro i _
    simp [Outcome.closes, keep]
  rw [none] at closed
  exact closed.eq_nil

end Strategy

end Bozo.Failover
