import Bozo.Failover.Strategy
import Mathlib.Order.Bounds.Basic

/-!
# The retry strategy

An operation is tried again after an error while tries remain, either after any
error or after those that match one of the given conditions.
-/

namespace Bozo.Failover

universe u v

variable {γ : Type u} {κ : Type v}

/-- The options of a retry strategy that are the same for all of its tries. -/
structure RetryOptions (γ : Type u) where
  conditions : Option (List γ)
  closeConnection : Option Bool

/-- `basic_try`.  Only the number of tries differs between the tries of a
strategy. -/
structure BasicTry where
  triesRemain : Int
  deriving DecidableEq, Repr

section Retry

-- Whether an error code is equal to an error condition.
variable (isEqual : γ → ErrorCode → Bool) (options : RetryOptions γ)

/-- `errc::match_code`. -/
def matchCode (conditions : List γ) (ec : ErrorCode) : Bool :=
  conditions.any fun condition => isEqual condition ec

namespace RetryOptions

/-- `basic_try::get_conditions`. -/
def getConditions : List γ :=
  options.conditions.getD []

/-- Whether connections are closed; they are by default. -/
def closes : Bool :=
  options.closeConnection.getD true

end RetryOptions

namespace BasicTry

def adjustTriesRemain (current : BasicTry) : BasicTry :=
  ⟨max 0 (current.triesRemain - 1)⟩

def canRetry (current : BasicTry) (ec : ErrorCode) : Bool :=
  if current.triesRemain < 1 then
    false
  else if options.getConditions.isEmpty then
    true
  else
    matchCode isEqual options.getConditions ec

/-- The actions of `basic_try::get_next_try` and the try that it returns. -/
def getNextTry (current : BasicTry) (ec : ErrorCode) (conn : Option κ) :
    List (Action BasicTry κ) × Option BasicTry :=
  let guard := deferCloseConnection options.closes conn
  let adjusted := current.adjustTriesRemain
  if adjusted.canRetry isEqual options ec then
    (.notify ec conn adjusted :: guard, some adjusted)
  else
    (guard, none)

/-- `initiate_next_try_impl::apply`: the guard is gone when the initiator is
called. -/
def initiateNextTry (current : BasicTry) (ec : ErrorCode) (conn : Option κ) :
    NextTry BasicTry κ where
  before := (current.getNextTry isEqual options ec conn).1
  next := (current.getNextTry isEqual options ec conn).2
  after := []

variable {isEqual options}

theorem next_initiateNextTry (current : BasicTry) (ec : ErrorCode) (conn : Option κ) :
    (current.initiateNextTry isEqual options ec conn).next =
      if current.adjustTriesRemain.canRetry isEqual options ec then
        some current.adjustTriesRemain
      else
        none := by
  by_cases can : current.adjustTriesRemain.canRetry isEqual options ec = true
  · simp [initiateNextTry, getNextTry, can]
  · simp [initiateNextTry, getNextTry, can]

theorem one_le_of_canRetry {current : BasicTry} {ec : ErrorCode}
    (can : current.canRetry isEqual options ec = true) : 1 ≤ current.triesRemain := by
  unfold canRetry at can
  split at can
  · cases can
  · omega

end BasicTry

/-- `retry_strategy`. -/
def retry : Strategy BasicTry κ where
  initiateNextTry := BasicTry.initiateNextTry isEqual options
  closeConnection := options.closes
  actions current ec conn := by
    refine ⟨deferCloseConnection options.closes conn, ?_, List.append_nil _⟩
    by_cases can : current.adjustTriesRemain.canRetry isEqual options ec = true
    · simp [BasicTry.initiateNextTry, BasicTry.getNextTry, can]
    · simp [BasicTry.initiateNextTry, BasicTry.getNextTry, can]
  triesLeft current := current.triesRemain.toNat
  triesLeft_lt := by
    intro current ec conn next again
    rw [BasicTry.next_initiateNextTry] at again
    split at again
    · rename_i can
      cases again
      have remain := BasicTry.one_le_of_canRetry can
      simp only [BasicTry.adjustTriesRemain] at remain ⊢
      omega
    · cases again

/-- The try number `i` is the last one of a run with `n` tries. -/
def Stops (n : Int) (outcomes : Nat → Outcome κ) (i : Nat) : Prop :=
  (outcomes i).ec.failed = false ∨ max n 1 ≤ i ∨
    (options.getConditions ≠ [] ∧
      ∀ condition ∈ options.getConditions, isEqual condition (outcomes i).ec = false)

variable {isEqual options} {n : Int} {outcomes : Nat → Outcome κ}

/-- The number of tries that remain at the try number `i`. -/
def remaining (n : Int) (i : Nat) : BasicTry :=
  ⟨n - i + 1⟩

theorem canRetry_eq_false_iff (current : BasicTry) (ec : ErrorCode) :
    current.canRetry isEqual options ec = false ↔
      current.triesRemain < 1 ∨ (options.getConditions ≠ [] ∧
        ∀ condition ∈ options.getConditions, isEqual condition ec = false) := by
  unfold BasicTry.canRetry
  split
  · rename_i none
    simp [none]
  · rename_i some
    split
    · rename_i empty
      simp [some, List.isEmpty_iff.mp empty]
    · rename_i nonempty
      rw [List.isEmpty_iff] at nonempty
      simp [some, nonempty, matchCode]

/-- The run ends with the try number `i` exactly when it should. -/
theorem next_retry_eq_none_iff {i : Nat} (positive : 1 ≤ i) :
    (retry isEqual options).next (remaining n i) (outcomes i) = none ↔
      Stops isEqual options n outcomes i := by
  unfold Strategy.next Stops
  cases failed : (outcomes i).ec.failed with
  | false => simp
  | true =>
      have spent : (remaining n i).adjustTriesRemain.triesRemain < 1 ↔ max n 1 ≤ i := by
        simp only [remaining, BasicTry.adjustTriesRemain]
        omega
      have given : ((retry isEqual options).initiateNextTry (remaining n i) (outcomes i).ec
          (outcomes i).conn).next = _ :=
        BasicTry.next_initiateNextTry (remaining n i) (outcomes i).ec (outcomes i).conn
      rw [if_pos rfl, given, ← spent, ← canRetry_eq_false_iff]
      simp

theorem next_retry {i : Nat} {next : BasicTry}
    (again : (retry isEqual options).next (remaining n i) (outcomes i) = some next) :
    next = remaining n (i + 1) := by
  have given := (Strategy.next_eq_some again).2.symm.trans
    (BasicTry.next_initiateNextTry (remaining n i) (outcomes i).ec (outcomes i).conn)
  split at given
  · rename_i can
    cases given
    have remain := BasicTry.one_le_of_canRetry can
    simp only [remaining, BasicTry.adjustTriesRemain, BasicTry.mk.injEq] at remain ⊢
    omega
  · cases given

variable (isEqual options n outcomes) in
/-- The run ends with the first try that is to be the last one. -/
theorem stops_attempts {i : Nat} (positive : 1 ≤ i) :
    Stops isEqual options n outcomes
        (i + ((retry isEqual options).attempts outcomes (remaining n i) i).length - 1) ∧
      ∀ j, i ≤ j →
        j < i + ((retry isEqual options).attempts outcomes (remaining n i) i).length - 1 →
          ¬ Stops isEqual options n outcomes j := by
  generalize at_i : remaining n i = current
  induction current, i using Strategy.induction (retry isEqual options) outcomes with
  | step current i ih =>
      subst at_i
      cases again : (retry isEqual options).next (remaining n i) (outcomes i) with
      | none =>
          rw [Strategy.attempts_of_last again]
          refine ⟨(next_retry_eq_none_iff positive).mp again, fun j first last => ?_⟩
          simp only [List.length_singleton] at last
          omega
      | some next =>
          obtain ⟨stops, before⟩ := ih next again (by omega) (next_retry again).symm
          rw [Strategy.attempts_of_next again]
          have next_i : i + 1 + ((retry isEqual options).attempts outcomes next (i + 1)).length - 1 =
              i + ((remaining n i, outcomes i) ::
                (retry isEqual options).attempts outcomes next (i + 1)).length - 1 := by
            simp only [List.length_cons]
            omega
          rw [next_i] at stops before
          constructor
          · exact stops
          · intro j first last
            rcases Nat.eq_or_lt_of_le first with rfl | later
            · rw [← next_retry_eq_none_iff positive, again]
              exact Option.some_ne_none next
            · exact before j later last

/-- What a run does that ends with the try number `k`. -/
structure RetryRun (options : RetryOptions γ) (outcomes : Nat → Outcome κ) (k : Nat)
    (actions : List (Action BasicTry κ)) : Prop where
  initiated : (actions.filterMap Action.initiated?).length = k
  handled : actions.filterMap Action.handled? = [((outcomes k).ec, (outcomes k).conn)]
  notified : (actions.filterMap Action.notified?).map (fun retry => (retry.1, retry.2.1)) =
    (List.range' 1 (k - 1)).map fun i => ((outcomes i).ec, (outcomes i).conn)
  closed : options.closes = true →
    (actions.filterMap Action.closed?).Perm (Strategy.failedConnections outcomes k)
  kept : options.closes = false → actions.filterMap Action.closed? = []

theorem retryRun_attempts (first : BasicTry) (inline : Nat → Bool) :
    RetryRun options outcomes ((retry isEqual options).attempts outcomes first 1).length
      ((retry isEqual options).run outcomes inline first) := by
  constructor
  · rw [Strategy.initiated_run, List.length_map]
  · exact Strategy.handled_run _ _ _ _
  · rw [Strategy.notified_run, Strategy.map_fallbacks, Strategy.map_snd_attempts]
    cases (((retry isEqual options).attempts outcomes first 1)).length with
    | zero => rfl
    | succ tries =>
        rw [List.range'_concat, List.map_append, List.map_singleton, List.dropLast_concat,
          List.map_map]
        rfl
  · exact (retry isEqual options).closed_run_of_close outcomes inline first
  · exact (retry isEqual options).closed_run_of_keep outcomes inline first

end Retry

/-- An operation is tried until the first try that is to be the last one. -/
theorem retry_run (isEqual : γ → ErrorCode → Bool) (options : RetryOptions γ) (n : Int)
    (outcomes : Nat → Outcome κ) (inline : Nat → Bool) :
    ∃ k, IsLeast {i | 1 ≤ i ∧ Stops isEqual options n outcomes i} k ∧
      RetryRun options outcomes k ((retry isEqual options).run outcomes inline ⟨n⟩) := by
  have first : remaining n 1 = ⟨n⟩ := by simp [remaining]
  have ends := stops_attempts isEqual options n outcomes (le_refl 1)
  rw [first, Nat.add_sub_cancel_left] at ends
  obtain ⟨stops, before⟩ := ends
  have nonempty := List.length_pos_iff.mpr
    ((retry isEqual options).attempts_ne_nil outcomes ⟨n⟩ 1)
  refine ⟨_, ⟨⟨nonempty, stops⟩, ?_⟩, retryRun_attempts ⟨n⟩ inline⟩
  rintro i ⟨positive, stopsAt⟩
  by_contra earlier
  exact before i positive (not_le.mp earlier) stopsAt

end Bozo.Failover
