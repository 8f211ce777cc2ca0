import Bozo.Failover.Nested
import Bozo.Failover.TimeConstraint
import Mathlib.Algebra.Order.BigOperators.Group.List
import Mathlib.Algebra.Order.Group.Nat

/-!
# Runs of nested strategies

Calls of an operation under a strategy are answered when those of the operation
are, so any number of strategies can be put on top of each other.  A run is a run
of the outermost strategy, with a section of attempts for each of its tries.
-/

namespace Bozo.Failover

open Bozo.Bytes.Layout

universe u v w

variable {χ : Type w} {κ : Type v}

/-- Every call of an operation is answered: with so many attempts at most, all
of them with the same part of the context. -/
structure Operation {β : Type w} (outcomes : Nat → Outcome κ) (view : χ → β) (most : Nat)
    (op : Initiator χ κ) (made : χ → Nat → List χ) (closed : χ → Nat → List κ) : Prop where
  answers : ∀ ctx i, Answers outcomes (op ctx i) i (made ctx i) (closed ctx i)
  length_le : ∀ ctx i, (made ctx i).length ≤ most
  view_eq : ∀ ctx i, ∀ current ∈ made ctx i, view current = view ctx

/-- The connections of all attempts that fail are closed. -/
def ClosesFailed (outcomes : Nat → Outcome κ) (made : χ → Nat → List χ)
    (closed : χ → Nat → List κ) : Prop :=
  ∀ ctx i j, i ≤ j → j < i + (made ctx i).length →
    ∀ conn ∈ (outcomes j).closes true, conn ∈ closed ctx i

namespace Layer

section Operation

variable {β : Type w} (layer : Layer χ κ) {outcomes : Nat → Outcome κ} {view : χ → β} {most : Nat}
  {op : Initiator χ κ} {made : χ → Nat → List χ} {closed : χ → Nat → List κ}

/-- The contexts of the attempts under a strategy. -/
def madeWith (outcomes : Nat → Outcome κ) (made : χ → Nat → List χ) (ctx : χ) (i : Nat) :
    List χ :=
  (layer.tries outcomes made (layer.basicContext i ctx) layer.getFirstTry i).flatMap
    fun current => layer.madeBy made (layer.basicContext i ctx) current.1 current.2

/-- The connections that are closed under a strategy. -/
def closedWith (outcomes : Nat → Outcome κ) (made : χ → Nat → List χ)
    (closed : χ → Nat → List κ) (ctx : χ) (i : Nat) : List κ :=
  (layer.tries outcomes made (layer.basicContext i ctx) layer.getFirstTry i).flatMap
    fun current => layer.closedBy outcomes made closed (layer.basicContext i ctx)
      current.1 current.2

theorem length_madeWith_le (length_le : ∀ ctx i, (made ctx i).length ≤ most) (ctx : χ) (i : Nat) :
    (layer.madeWith outcomes made ctx i).length ≤ most * layer.limit := by
  have tries := layer.length_tries_le outcomes made (layer.basicContext i ctx) layer.getFirstTry i
  unfold madeWith
  rw [List.length_flatMap]
  refine (List.sum_le_card_nsmul _ most ?_).trans ?_
  · intro length member
    rcases List.mem_map.mp member with ⟨current, -, rfl⟩
    exact length_le _ _
  · rw [List.length_map, Nat.nsmul_eq_mul, Nat.mul_comm]
    exact Nat.mul_le_mul_left most tries

/-- An operation under a strategy is an operation. -/
theorem operation (keeps : layer.Keeps view)
    (below : Operation outcomes view most op made closed) :
    Operation outcomes view (most * layer.limit) (layer.operationInitiator op)
      (layer.madeWith outcomes made) (layer.closedWith outcomes made closed) := by
  constructor
  · intro ctx i
    exact layer.initiateOperation_answers _ below.answers layer.getFirstTry i
  · exact layer.length_madeWith_le below.length_le
  · intro ctx i current member
    rcases List.mem_flatMap.mp member with ⟨tried, -, member⟩
    exact (below.view_eq _ _ current member).trans ((keeps.2 _ _ _).trans (keeps.1 i ctx))

variable (outcomes made closed) in
/-- The strategy that is put on the operation at the bottom sees all of its
failures. -/
theorem closesFailed_of_single (closes : layer.strategy.closeConnection = true)
    (single : ∀ ctx i, (made ctx i).length = 1) :
    ClosesFailed outcomes (layer.madeWith outcomes made)
      (layer.closedWith outcomes made closed) := by
  intro ctx i j first last conn member
  obtain ⟨tried, isTry, start, stop⟩ := layer.exists_try layer.getFirstTry i j first last
  have one : (layer.madeBy made (layer.basicContext i ctx) tried.1 tried.2).length = 1 :=
    single _ _
  have same : j = tried.2 + 1 - 1 := by omega
  refine List.mem_flatMap.mpr ⟨tried, isTry, List.mem_append_right _ ?_⟩
  rw [one, closes, ← same]
  exact member

theorem closesFailed_of_below (below : ClosesFailed outcomes made closed) :
    ClosesFailed outcomes (layer.madeWith outcomes made)
      (layer.closedWith outcomes made closed) := by
  intro ctx i j first last conn member
  obtain ⟨tried, isTry, start, stop⟩ := layer.exists_try layer.getFirstTry i j first last
  refine List.mem_flatMap.mpr ⟨tried, isTry, List.mem_append_left _ ?_⟩
  exact below _ tried.2 j start stop conn member

/-- A strategy that keeps connections closes none. -/
theorem closedWith_eq_nil (keep : layer.strategy.closeConnection = false)
    (below : ∀ ctx i, closed ctx i = []) (ctx : χ) (i : Nat) :
    layer.closedWith outcomes made closed ctx i = [] := by
  rw [closedWith, List.flatMap_eq_nil_iff]
  intro tried _
  simp [closedBy, below, keep, Outcome.closes]

end Operation

end Layer

section Nested

variable {β : Type w} {view : χ → β} {outcomes : Nat → Outcome κ}

theorem perform_operation (inline : Nat → Bool) :
    Operation outcomes view 1 (perform outcomes inline) (fun ctx _ => [ctx])
      (fun _ _ => []) where
  answers := perform_answers outcomes inline
  length_le _ _ := Nat.le_refl 1
  view_eq _ _ _ member := congrArg view (List.mem_singleton.mp member)

/-- Any number of strategies on top of each other make an operation of an
operation. -/
theorem nest_operation {layers : List (Layer χ κ)} (keeps : ∀ layer ∈ layers, layer.Keeps view)
    {most : Nat} {op : Initiator χ κ} {made : χ → Nat → List χ} {closed : χ → Nat → List κ}
    (below : Operation outcomes view most op made closed) :
    ∃ made' closed',
      Operation outcomes view (most * (layers.map Layer.limit).prod) (nest layers op)
          made' closed' ∧
        (ClosesFailed outcomes made closed → ClosesFailed outcomes made' closed') ∧
        ((∀ layer ∈ layers, layer.strategy.closeConnection = false) →
          (∀ ctx i, closed ctx i = []) → ∀ ctx i, closed' ctx i = []) := by
  induction layers generalizing most op made closed with
  | nil =>
      refine ⟨made, closed, ?_, id, fun _ => id⟩
      rw [List.map_nil, List.prod_nil, Nat.mul_one]
      exact below
  | cons layer layers ih =>
      rcases List.forall_mem_cons.mp keeps with ⟨here, others⟩
      obtain ⟨made', closed', operation, closes, keep⟩ := ih others (layer.operation here below)
      refine ⟨made', closed', ?_, fun failed => ?_, fun keepAll none => ?_⟩
      · rw [List.map_cons, List.prod_cons, ← Nat.mul_assoc]
        exact operation
      · exact closes (layer.closesFailed_of_below failed)
      · rcases List.forall_mem_cons.mp keepAll with ⟨keepHere, keepOthers⟩
        exact keep keepOthers (layer.closedWith_eq_nil keepHere none)

end Nested

/-- What a run does in which every try of the outermost strategy is a section of
the attempts: it is a run of that strategy over the outcomes of the sections. -/
structure NestedRun {β : Type w} (outer : Layer χ κ) (most : Nat) (view : χ → β)
    (outcomes : Nat → Outcome κ) (ctx : χ) (sections : List (List χ))
    (actions : List (Action χ κ)) : Prop where
  initiated : actions.filterMap Action.initiated? = sections.flatten
  handled : actions.filterMap Action.handled? =
    [((outcomes sections.flatten.length).ec, (outcomes sections.flatten.length).conn)]
  failed : ∀ j, 1 ≤ j → j < sections.flatten.length → (outcomes j).ec.failed = true
  tries : List.Forall₂
    (fun tried part => part ≠ [] ∧ part.length ≤ most ∧ ∃ i, ∀ current ∈ part,
      view current = view (outer.getTryContext tried i (outer.basicContext 1 ctx)))
    ((outer.strategy.attempts (fun k => outcomes (offset (sections.map List.length) k))
      outer.getFirstTry 1).map Prod.fst) sections
  length_le : sections.flatten.length ≤ most * outer.limit

section Nested

variable {β : Type w} {view : χ → β} {outcomes : Nat → Outcome κ}

/-- The run of a strategy over an operation. -/
theorem nestedRun_of_operation (outer : Layer χ κ) {most : Nat} {op : Initiator χ κ}
    {made : χ → Nat → List χ} {closed : χ → Nat → List κ}
    (below : Operation outcomes view most op made closed) (ctx : χ) :
    ∃ sections, sections.flatten = outer.madeWith outcomes made ctx 1 ∧
      NestedRun outer most view outcomes ctx sections
        (outer.operationInitiator op ctx 1 invoke).trace ∧
      ((outer.operationInitiator op ctx 1 invoke).trace.filterMap Action.closed?).Perm
        (outer.closedWith outcomes made closed ctx 1) := by
  have answers := outer.initiateOperation_answers (outer.basicContext 1 ctx)
    below.answers outer.getFirstTry 1
  let tries := outer.tries outcomes made (outer.basicContext 1 ctx) outer.getFirstTry 1
  let sections := tries.map fun current =>
    outer.madeBy made (outer.basicContext 1 ctx) current.1 current.2
  have flatten : sections.flatten = outer.madeWith outcomes made ctx 1 := rfl
  have attempts := outer.attempts_eq made (outer.basicContext 1 ctx)
    (fun k => outcomes (offset (sections.map List.length) k)) outer.getFirstTry 1 1 (by
      intro j _
      rw [Nat.add_sub_cancel_left, Nat.add_comm 1 j, List.map_map]
      rfl)
  refine ⟨sections, flatten, ⟨?_, ?_, ?_, ?_, ?_⟩, ?_⟩
  · rw [flatten]
    exact (answers.initiated invoke).trans (List.append_nil _)
  · have handled := answers.handled invoke
    rw [Nat.add_sub_cancel_left] at handled
    exact handled
  · intro j first last
    rw [flatten] at last
    have later : j + 1 < 1 + (outer.madeWith outcomes made ctx 1).length := by omega
    exact answers.failed j first later
  · rw [attempts]
    refine List.forall₂_map_left_iff.mpr (List.forall₂_map_right_iff.mpr ?_)
    refine List.forall₂_same.mpr fun tried _ => ⟨?_, ?_, tried.2, ?_⟩
    · exact (below.answers _ _).made_ne
    · exact below.length_le _ _
    · exact below.view_eq _ _
  · rw [flatten]
    exact outer.length_madeWith_le below.length_le ctx 1
  · exact (answers.closed invoke).trans (List.Perm.of_eq (List.append_nil _))

variable (outcomes) in
/-- The innermost strategy is put on the operation at the bottom, whose attempts
it sees one by one. -/
theorem nest_perform (inner : List (Layer χ κ)) (inline : Nat → Bool)
    (keeps : ∀ layer ∈ inner, layer.Keeps view) :
    ∃ made closed,
      Operation outcomes view (inner.map Layer.limit).prod (nest inner (perform outcomes inline))
          made closed ∧
        (∀ outer : Layer χ κ,
          (∀ first ∈ (inner ++ [outer]).head?, first.strategy.closeConnection = true) →
            ClosesFailed outcomes (outer.madeWith outcomes made)
              (outer.closedWith outcomes made closed)) ∧
        ((∀ layer ∈ inner, layer.strategy.closeConnection = false) →
          ∀ ctx i, closed ctx i = []) := by
  cases inner with
  | nil =>
      refine ⟨_, _, perform_operation inline, fun outer closes => ?_, fun _ _ _ => rfl⟩
      exact outer.closesFailed_of_single _ _ _ (closes outer rfl) fun _ _ => rfl
  | cons first others =>
      rcases List.forall_mem_cons.mp keeps with ⟨here, keepsOthers⟩
      obtain ⟨made, closed, operation, closesOthers, keepOthers⟩ :=
        nest_operation keepsOthers (first.operation here (perform_operation inline))
      refine ⟨made, closed, ?_, fun outer closes => ?_, fun keepAll => ?_⟩
      · rw [Nat.one_mul] at operation
        exact operation
      · have single := first.closesFailed_of_single outcomes (fun ctx _ => [ctx])
          (fun _ _ => []) (closes first rfl) fun _ _ => rfl
        exact outer.closesFailed_of_below (closesOthers single)
      · rcases List.forall_mem_cons.mp keepAll with ⟨keepFirst, keepRest⟩
        exact keepOthers keepRest (first.closedWith_eq_nil keepFirst fun _ _ => rfl)

end Nested

/-! ## A single strategy -/

theorem offset_replicate_one {n j : Nat} (inside : j ≤ n) :
    offset (List.replicate n 1) j = j := by
  rw [offset, List.take_replicate, List.sum_replicate, Nat.min_eq_left inside, Nat.nsmul_eq_mul,
    Nat.mul_one]

/-- Under one strategy only, the operation is initiated as often as in a run of
the strategy, and the handler is invoked with the same outcome. -/
theorem operationInitiator_perform (layer : Layer χ κ) (outcomes : Nat → Outcome κ)
    (inline inline' : Nat → Bool) (ctx : χ) :
    ((layer.operationInitiator (perform outcomes inline) ctx 1 invoke).trace.filterMap
        Action.initiated?).length =
      ((layer.strategy.run outcomes inline' layer.getFirstTry).filterMap
        Action.initiated?).length ∧
    (layer.operationInitiator (perform outcomes inline) ctx 1 invoke).trace.filterMap
        Action.handled? =
      (layer.strategy.run outcomes inline' layer.getFirstTry).filterMap Action.handled? := by
  let tries := layer.tries outcomes (fun ctx _ => [ctx]) (layer.basicContext 1 ctx)
    layer.getFirstTry 1
  have answers := layer.initiateOperation_answers (layer.basicContext 1 ctx)
    (perform_answers outcomes inline) layer.getFirstTry 1
  have lengths : (tries.map fun current => (layer.madeBy (fun ctx _ => [ctx])
      (layer.basicContext 1 ctx) current.1 current.2).length) = List.replicate tries.length 1 :=
    List.map_const'
  have attempts := layer.attempts_eq (fun ctx _ => [ctx]) (layer.basicContext 1 ctx)
    outcomes layer.getFirstTry 1 1 (by
      intro j inside
      rw [lengths, offset_replicate_one inside, Nat.add_sub_cancel_left, Nat.add_comm])
  have number : (layer.strategy.attempts outcomes layer.getFirstTry 1).length = tries.length := by
    have same := congrArg List.length attempts
    rw [List.length_map, List.length_map] at same
    exact same
  have made : (tries.flatMap fun current => layer.madeBy (fun ctx _ => [ctx])
      (layer.basicContext 1 ctx) current.1 current.2).length = tries.length := by
    rw [List.length_flatMap, lengths, List.sum_replicate, Nat.nsmul_eq_mul, Nat.mul_one]
  constructor
  · have initiated := (answers.initiated invoke).trans (List.append_nil _)
    rw [Strategy.initiated_run, List.length_map, number]
    exact (congrArg List.length initiated).trans made
  · have handled := answers.handled invoke
    rw [made, Nat.add_sub_cancel_left, ← number] at handled
    rw [Strategy.handled_run]
    exact handled

/-! ## Retry and roles -/

/-- The context of an operation: the role that its provider is bound to, and its
time constraint. -/
structure Context (ρ : Type w) where
  role : ρ
  timeConstraint : TimeConstraint

section Layers

variable {γ : Type u} {ρ : Type w}

/-- The context that a first try holds has the deadline of the operation. -/
def Context.basic (clock : Nat → Int) (i : Nat) (ctx : Context ρ) : Context ρ :=
  { ctx with timeConstraint := (deadline ctx.timeConstraint (clock i)).value }

/-- `retry_strategy` on an operation. -/
def retryLayer (isEqual : γ → ErrorCode → Bool) (options : RetryOptions γ) (n : Int)
    (clock : Nat → Int) : Layer (Context ρ) κ where
  Try := BasicTry
  strategy := retry isEqual options
  getFirstTry := ⟨n⟩
  basicContext := Context.basic clock
  getTryContext current i ctx :=
    { ctx with
      timeConstraint := (current.timeConstraint ctx.timeConstraint (clock i)).value }
  triesLeft_pos := by
    intro current ec conn next again
    have given := again.symm.trans (BasicTry.next_initiateNextTry current ec conn)
    split at given
    · rename_i can
      cases given
      have remain := BasicTry.one_le_of_canRetry can
      show 0 < current.adjustTriesRemain.triesRemain.toNat
      omega
    · cases given

/-- `role_based_strategy` on an operation: `rebind_role` and the share of time. -/
def roleBasedLayer (role : ρ) (others : List ρ) (canRecover : ρ → ErrorCode → Bool)
    (closeConnection : Option Bool) (clock : Nat → Int) : Layer (Context ρ) κ where
  Try := RoleBasedTry (role :: others)
  strategy := roleBased (role :: others) canRecover closeConnection
  getFirstTry := ⟨0⟩
  basicContext := Context.basic clock
  getTryContext current i ctx :=
    { role := current.role
      timeConstraint := (current.timeConstraint ctx.timeConstraint (clock i)).value }
  triesLeft_pos := by
    intro current ec conn next again
    have bound := next.index.isLt
    exact Nat.sub_pos_of_lt bound

/-- A retry stays with the role. -/
theorem retryLayer_keeps (isEqual : γ → ErrorCode → Bool) (options : RetryOptions γ) (n : Int)
    (clock : Nat → Int) :
    (retryLayer (κ := κ) isEqual options n clock).Keeps (Context.role : Context ρ → ρ) :=
  ⟨fun _ _ => rfl, fun _ _ _ => rfl⟩

end Layers

/-! ## Runs -/

/-- Strategies nest.  The outermost one runs as it does over a single operation,
with the runs of the others in the place of its attempts; the handler is invoked
once, with the outcome of the last attempt, and there are no more attempts than
the product of the tries.  The innermost strategy is the one that decides
whether the connections of failed attempts are closed. -/
theorem nest_run {β : Type w} (inner : List (Layer χ κ)) (outer : Layer χ κ)
    (outcomes : Nat → Outcome κ) (inline : Nat → Bool) (view : χ → β)
    (keeps : ∀ layer ∈ inner, layer.Keeps view) (ctx : χ) :
    ∃ sections actions,
      actions = (nest (inner ++ [outer]) (perform outcomes inline) ctx 1 invoke).trace ∧
        NestedRun outer (inner.map Layer.limit).prod view outcomes ctx sections actions ∧
        ((∀ first ∈ (inner ++ [outer]).head?, first.strategy.closeConnection = true) →
          ∀ j, 1 ≤ j → j ≤ sections.flatten.length → ∀ conn ∈ (outcomes j).closes true,
            conn ∈ actions.filterMap Action.closed?) ∧
        ((∀ layer ∈ inner ++ [outer], layer.strategy.closeConnection = false) →
          actions.filterMap Action.closed? = []) := by
  have whole : nest (inner ++ [outer]) (perform outcomes inline) =
      outer.operationInitiator (nest inner (perform outcomes inline)) := by
    rw [nest, List.foldl_append]
    rfl
  obtain ⟨made, closed, operation, closes, keep⟩ :=
    nest_perform outcomes inner inline keeps
  obtain ⟨sections, flatten, run, closedPerm⟩ := nestedRun_of_operation outer operation ctx
  refine ⟨sections, _, rfl, whole ▸ run, fun innermost j first last conn member => ?_, ?_⟩
  · rw [whole, closedPerm.mem_iff]
    rw [flatten] at last
    exact closes outer innermost ctx 1 j first (by omega) conn member
  · intro keepAll
    rcases List.forall_mem_append.mp keepAll with ⟨keepInner, keepOuter⟩
    rw [whole]
    rw [outer.closedWith_eq_nil (keepOuter outer List.mem_cons_self) (keep keepInner)] at closedPerm
    exact closedPerm.eq_nil

/-- Two roles, and two tries for each of them. -/
inductive ServerRole
  | master | replica
  deriving DecidableEq, Repr

def retryTwice : Layer (Context ServerRole) Nat :=
  retryLayer (fun (_ : Unit) _ => true) ⟨none, none⟩ 2 fun _ => 0

def masterThenReplica : Layer (Context ServerRole) Nat :=
  roleBasedLayer .master [.replica] (fun _ _ => true) none fun _ => 0

/-- Each attempt `i` fails with the connection `i`. -/
def failing (i : Nat) : Outcome Nat :=
  ⟨operationAborted, some i⟩

/-- There are four attempts at most, and all of their connections are closed. -/
theorem nest_run_retryTwice :
    ∃ (sections : List (List (Context ServerRole))) (actions : List _),
      actions = (nest ([retryTwice] ++ [masterThenReplica]) (perform failing fun _ => false)
        ⟨.master, .none⟩ 1 invoke).trace ∧
        sections.flatten.length ≤ 4 ∧
        actions.filterMap Action.handled? =
          [(operationAborted, some sections.flatten.length)] ∧
        ∀ j, 1 ≤ j → j ≤ sections.flatten.length → j ∈ actions.filterMap Action.closed? := by
  have keeps : ∀ layer ∈ [retryTwice],
      layer.Keeps (Context.role : Context ServerRole → ServerRole) := by
    intro layer member
    cases List.mem_singleton.mp member
    exact retryLayer_keeps _ _ _ _
  obtain ⟨sections, actions, same, run, closes, -⟩ := nest_run [retryTwice] masterThenReplica
    failing (fun _ => false) Context.role keeps ⟨.master, .none⟩
  have innermost : ∀ first ∈ ([retryTwice] ++ [masterThenReplica]).head?,
      first.strategy.closeConnection = true := by
    rintro first ⟨⟩
    rfl
  refine ⟨sections, actions, same, run.length_le, run.handled, fun j first last => ?_⟩
  exact closes innermost j first last j (List.mem_singleton.mpr rfl)

end Bozo.Failover
