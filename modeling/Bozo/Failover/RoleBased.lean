import Bozo.Failover.Strategy
import Mathlib.Order.Bounds.Basic
import Mathlib.Order.Fin.Basic

/-!
# The role-based strategy

An operation is tried with the first role of a list.  After an error it is tried
with the next role that can recover the error; the roles between are skipped.
-/

namespace Bozo.Failover

universe u v

variable {ρ : Type u} {κ : Type v} {roles : List ρ}

/-- `role_based_try`: the role is given by its index. -/
structure RoleBasedTry (roles : List ρ) where
  index : Fin roles.length
  deriving DecidableEq, Repr

namespace RoleBasedTry

def role (current : RoleBasedTry roles) : ρ :=
  roles.get current.index

/-- The role of the try itself is counted. -/
def triesLeft (current : RoleBasedTry roles) : Nat :=
  roles.length - current.index

section NextTry

variable (canRecover : ρ → ErrorCode → Bool) (closeConnection : Option Bool)

/-- `role_based_try::initiate_next_try`.  The guard lives until the initiator
has returned.  For a role that is skipped it is released, and the next level
has one of its own. -/
def initiateNextTry (current : RoleBasedTry roles) (ec : ErrorCode) (conn : Option κ) :
    NextTry (RoleBasedTry roles) κ :=
  let guard := deferCloseConnection (closeConnection.getD true) conn
  if left : 1 < current.triesLeft then
    let fallback : RoleBasedTry roles :=
      ⟨⟨current.index + 1, Nat.add_lt_of_lt_sub' left⟩⟩
    if canRecover fallback.role ec then
      ⟨[.notify ec conn fallback], some fallback, guard⟩
    else
      fallback.initiateNextTry ec conn
  else
    ⟨[], none, guard⟩
termination_by current.triesLeft
decreasing_by
  simp only [triesLeft] at left ⊢
  omega

/-- The roles behind the one of a try that can recover an error. -/
def Recovers (current : RoleBasedTry roles) (ec : ErrorCode) : Set (Fin roles.length) :=
  {j | current.index < j ∧ canRecover (roles.get j) ec = true}

/-- What `initiate_next_try` does: it calls the initiator with the first role
that can recover the error, if there is one, and closes the connection at its
end. -/
structure Given (current : RoleBasedTry roles) (ec : ErrorCode) (conn : Option κ)
    (given : NextTry (RoleBasedTry roles) κ) : Prop where
  isLeast : ∀ next, given.next = some next →
    IsLeast (current.Recovers canRecover ec) next.index
  isEmpty : given.next = none → current.Recovers canRecover ec = ∅
  before : given.before = (given.next.map (.notify ec conn)).toList
  after : given.after = deferCloseConnection (closeConnection.getD true) conn

variable {canRecover}

/-- The roles behind a try are the next one and those behind it. -/
theorem mem_recovers_iff {current : RoleBasedTry roles} (fallback : RoleBasedTry roles)
    {ec : ErrorCode} (next : fallback.index.val = current.index + 1) (j : Fin roles.length) :
    j ∈ current.Recovers canRecover ec ↔
      (j = fallback.index ∧ canRecover fallback.role ec = true) ∨
        j ∈ fallback.Recovers canRecover ec := by
  have behind : current.index < j ↔ j = fallback.index ∨ fallback.index < j := by
    rw [Fin.ext_iff, Fin.lt_def, Fin.lt_def]
    omega
  constructor
  · rintro ⟨after, recovers⟩
    rcases behind.mp after with rfl | later
    · exact .inl ⟨rfl, recovers⟩
    · exact .inr ⟨later, recovers⟩
  · rintro (⟨rfl, recovers⟩ | ⟨later, recovers⟩)
    · exact ⟨behind.mpr (.inl rfl), recovers⟩
    · exact ⟨behind.mpr (.inr later), recovers⟩

variable (canRecover)

theorem initiateNextTry_given (current : RoleBasedTry roles) (ec : ErrorCode) (conn : Option κ) :
    current.Given canRecover closeConnection ec conn
      (current.initiateNextTry canRecover closeConnection ec conn) := by
  fun_induction initiateNextTry canRecover closeConnection current ec conn with
  | case1 current guard left fallback recovers =>
      refine ⟨?_, nofun, rfl, rfl⟩
      rintro _ ⟨⟩
      refine ⟨(mem_recovers_iff fallback rfl _).mpr (.inl ⟨rfl, recovers⟩), fun j member => ?_⟩
      rcases (mem_recovers_iff fallback rfl j).mp member with ⟨rfl, _⟩ | ⟨later, _⟩
      · exact le_refl _
      · exact later.le
  | case2 current left fallback skipped ih =>
      have same : current.Recovers canRecover ec = fallback.Recovers canRecover ec := by
        ext j
        rw [mem_recovers_iff fallback rfl j]
        simp [skipped]
      exact ⟨same ▸ ih.isLeast, same ▸ ih.isEmpty, ih.before, ih.after⟩
  | case3 current guard spent =>
      refine ⟨nofun, fun _ => ?_, rfl, rfl⟩
      rw [Set.eq_empty_iff_forall_notMem]
      rintro j ⟨after, _⟩
      have bound := j.isLt
      simp only [triesLeft] at spent
      rw [Fin.lt_def] at after
      omega

end NextTry

end RoleBasedTry

/-- `role_based_strategy`. -/
def roleBased (roles : List ρ) (canRecover : ρ → ErrorCode → Bool)
    (closeConnection : Option Bool) : Strategy (RoleBasedTry roles) κ where
  initiateNextTry := RoleBasedTry.initiateNextTry canRecover closeConnection
  closeConnection := closeConnection.getD true
  actions current ec conn := by
    have given := current.initiateNextTry_given canRecover closeConnection ec conn
    exact ⟨[], given.before.trans (List.append_nil _).symm, given.after⟩
  triesLeft := RoleBasedTry.triesLeft
  triesLeft_lt := by
    intro current ec conn next again
    have given := current.initiateNextTry_given canRecover closeConnection ec conn
    have behind := (given.isLeast next again).1.1
    have bound := next.index.isLt
    simp only [RoleBasedTry.triesLeft]
    rw [Fin.lt_def] at behind
    omega

/-- What a run does with given tries. -/
structure RoleBasedRun (canRecover : ρ → ErrorCode → Bool) (closeConnection : Option Bool)
    (outcomes : Nat → Outcome κ) (tries : List (RoleBasedTry roles × Outcome κ))
    (actions : List (Action (RoleBasedTry roles) κ)) : Prop where
  outcomes_eq : tries.map Prod.snd = (List.range' 1 tries.length).map outcomes
  initiated : actions.filterMap Action.initiated? = tries.map Prod.fst
  fallback : tries.IsChain fun failed next => failed.2.ec.failed = true ∧
    IsLeast {j | failed.1.index < j ∧ canRecover (roles.get j) failed.2.ec = true} next.1.index
  last : ∀ last ∈ tries.getLast?, last.2.ec.failed = true →
    ∀ j, last.1.index < j → canRecover (roles.get j) last.2.ec = false
  increasing : (tries.map fun current => current.1.index).Pairwise (· < ·)
  handled : actions.filterMap Action.handled? =
    [((outcomes tries.length).ec, (outcomes tries.length).conn)]
  notified : actions.filterMap Action.notified? = Strategy.fallbacks tries
  closed : closeConnection.getD true = true →
    (actions.filterMap Action.closed?).Perm (Strategy.failedConnections outcomes tries.length)
  kept : closeConnection.getD true = false → actions.filterMap Action.closed? = []

section Run

variable {canRecover : ρ → ErrorCode → Bool} {closeConnection : Option Bool}
  {outcomes : Nat → Outcome κ}

/-- A try that follows another is made with the first role that can recover its
error. -/
theorem isLeast_of_next {current next : RoleBasedTry roles} {outcome : Outcome κ}
    (again : (roleBased roles canRecover closeConnection).next current outcome = some next) :
    outcome.ec.failed = true ∧
      IsLeast (current.Recovers canRecover outcome.ec) next.index := by
  obtain ⟨failed, given⟩ := Strategy.next_eq_some again
  exact ⟨failed, (current.initiateNextTry_given canRecover closeConnection outcome.ec
    outcome.conn).isLeast next given⟩

theorem recovers_eq_empty_of_last {current : RoleBasedTry roles} {outcome : Outcome κ}
    (last : (roleBased roles canRecover closeConnection).next current outcome = none)
    (failed : outcome.ec.failed = true) : current.Recovers canRecover outcome.ec = ∅ := by
  rw [Strategy.next, if_pos failed] at last
  exact (current.initiateNextTry_given canRecover closeConnection outcome.ec
    outcome.conn).isEmpty last

theorem roleBasedRun_attempts (first : RoleBasedTry roles) (inline : Nat → Bool) :
    RoleBasedRun canRecover closeConnection outcomes
      ((roleBased roles canRecover closeConnection).attempts outcomes first 1)
      ((roleBased roles canRecover closeConnection).run outcomes inline first) := by
  obtain ⟨chain, ends⟩ :=
    (roleBased roles canRecover closeConnection).isChain_attempts outcomes first 1
  have fallback := chain.imp fun _ _ again => isLeast_of_next again
  refine ⟨Strategy.map_snd_attempts _ _ _ _, Strategy.initiated_run _ _ _ _, fallback, ?_, ?_,
    Strategy.handled_run _ _ _ _, Strategy.notified_run _ _ _ _, ?_, ?_⟩
  · intro last member failed j behind
    have none := recovers_eq_empty_of_last (ends last member) failed
    rw [Set.eq_empty_iff_forall_notMem] at none
    exact Bool.eq_false_iff.mpr fun recovers => none j ⟨behind, recovers⟩
  · rw [← List.isChain_iff_pairwise, List.isChain_map]
    exact fallback.imp fun _ _ least => least.2.1.1
  · exact (roleBased roles canRecover closeConnection).closed_run_of_close outcomes inline first
  · exact (roleBased roles canRecover closeConnection).closed_run_of_keep outcomes inline first

end Run

/-- An operation is tried with the first role and then with the next one that
can recover the error, until there is none. -/
theorem roleBased_run (role : ρ) (others : List ρ) (canRecover : ρ → ErrorCode → Bool)
    (closeConnection : Option Bool) (outcomes : Nat → Outcome κ) (inline : Nat → Bool) :
    ∃ tries : List (RoleBasedTry (role :: others) × Outcome κ),
      tries.head?.map Prod.fst = some ⟨0⟩ ∧
        RoleBasedRun canRecover closeConnection outcomes tries
          ((roleBased (role :: others) canRecover closeConnection).run outcomes inline ⟨0⟩) := by
  refine ⟨_, ?_, roleBasedRun_attempts ⟨0⟩ inline⟩
  rw [Strategy.head?_attempts]
  rfl

end Bozo.Failover
