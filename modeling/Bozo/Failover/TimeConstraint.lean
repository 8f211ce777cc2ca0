import Bozo.Deadline
import Bozo.Failover.Retry
import Bozo.Failover.RoleBased

/-!
# The time of a try

Every try of an operation gets the time that is left until the deadline of the
operation, divided by the number of tries that are left.  No try gets more than
there is, the last one gets all of it, and what a try leaves over goes to the
tries behind it.
-/

namespace Bozo.Failover

open Bozo.Bytes
open Bozo.Bytes.Checked

universe u v w

/-- `detail::get_try_time_constraint`; `now` is the reading of the clock. -/
def getTryTimeConstraint (t : TimeConstraint) (nTries now : Int) : Checked TimeConstraint :=
  match t with
  | .none => pure .none
  | .timePoint t =>
      if nTries > 0 then do
        let left ← timeLeft t now
        TimeConstraint.duration <$> op (left.tdiv nTries)
      else
        pure (.duration 0)
  | .duration d =>
      if nTries > 0 then
        TimeConstraint.duration <$> op (d.tdiv nTries)
      else
        pure (.duration 0)

/-- `basic_try::time_constraint`. -/
def BasicTry.timeConstraint (current : BasicTry) (t : TimeConstraint) (now : Int) :
    Checked TimeConstraint :=
  getTryTimeConstraint t current.triesRemain now

/-- `role_based_try::time_constraint`; the number of roles is passed as an
`int`. -/
def RoleBasedTry.timeConstraint {ρ : Type u} {roles : List ρ} (current : RoleBasedTry roles)
    (t : TimeConstraint) (now : Int) : Checked TimeConstraint :=
  getTryTimeConstraint t (int32 current.triesLeft) now

/-! ## One try -/

/-- A try: when it is started, and how many tries are left, itself included. -/
structure Started where
  start : Int
  left : Int

/-- The share of a try in the time until the deadline `d`. -/
def Started.budget (d : Int) (current : Started) : Int :=
  max 0 (d - current.start) / current.left

theorem getTryTimeConstraint_eq {d : Int} {current : Started} (left_pos : 0 < current.left)
    (start_nonneg : 0 ≤ current.start) (d_le : d ≤ int64Max) :
    getTryTimeConstraint (.timePoint d) current.left current.start =
      pure (.duration (current.budget d)) := by
  have left_nonneg : 0 ≤ max 0 (d - current.start) := le_max_left _ _
  have lower : int64Min ≤ current.budget d :=
    (by decide : int64Min ≤ 0).trans (Int.ediv_nonneg left_nonneg left_pos.le)
  have upper : current.budget d ≤ int64Max := by
    have share := Int.ediv_le_self current.left left_nonneg
    have max_nonneg : 0 ≤ int64Max := by decide
    unfold Started.budget
    omega
  rw [getTryTimeConstraint, if_pos left_pos, timeLeft_eq start_nonneg d_le, pure_bind,
    Int.tdiv_eq_ediv_of_nonneg left_nonneg]
  exact (congrArg _ (op_eq_pure lower upper)).trans (map_pure _ _)

namespace Started

variable {d : Int} {current next : Started}

theorem budget_nonneg (left_pos : 0 < current.left) : 0 ≤ current.budget d :=
  Int.ediv_nonneg (le_max_left _ _) left_pos.le

/-- No try gets more than there is. -/
theorem start_add_budget_le (before : current.start ≤ d) :
    current.start + current.budget d ≤ d := by
  have share : current.budget d ≤ max 0 (d - current.start) :=
    Int.ediv_le_self _ (le_max_left _ _)
  omega

/-- The tries behind a try that ends within its time get no less. -/
theorem budget_le (left_pos : 0 < next.left) (fewer : next.left < current.left)
    (within : next.start ≤ current.start + current.budget d) :
    current.budget d ≤ next.budget d := by
  by_cases before : current.start ≤ d
  · have left_pos' : 0 < current.left := left_pos.trans fewer
    have nonneg : 0 ≤ current.budget d := budget_nonneg left_pos'
    have time_eq : max 0 (d - current.start) = d - current.start := max_eq_right (by omega)
    have all : current.budget d * current.left ≤ d - current.start := by
      rw [← time_eq]
      exact Int.ediv_mul_le _ left_pos'.ne'
    have others : current.budget d * next.left ≤ current.budget d * (current.left - 1) :=
      Int.mul_le_mul_of_nonneg_left (by omega) nonneg
    rw [Int.mul_sub, Int.mul_one] at others
    apply Int.le_ediv_of_mul_le left_pos
    exact Int.le_trans (by omega) (Int.le_max_right _ _)
  · have spent : max 0 (d - current.start) = 0 := max_eq_left (by omega)
    rw [budget, spent, Int.zero_ediv]
    exact budget_nonneg left_pos

end Started

/-! ## All tries -/

/-- Tries of an operation that is called at `now` with `n` tries: they are
started one after another, each with fewer tries left. -/
structure Tries (now n : Int) (tries : List Started) : Prop where
  first : ∀ first ∈ tries.head?, now ≤ first.start ∧ first.left = n
  ordered : tries.IsChain fun current next =>
    current.start ≤ next.start ∧ next.left < current.left
  left_pos : ∀ current ∈ tries, 0 < current.left
  start_le : ∀ current ∈ tries, current.start ≤ int64Max

/-- Every try but the last one ends within its time. -/
def WithinBudgets (d : Int) (tries : List Started) : Prop :=
  tries.IsChain fun current next => next.start ≤ current.start + current.budget d

namespace Tries

variable {now n d : Int} {tries : List Started}

theorem of_append {front rest : List Started} (run : Tries now n (front ++ rest)) :
    Tries now n front := by
  constructor
  · intro first isFirst
    apply run.first
    rw [List.head?_append, Option.mem_def.mp isFirst]
    rfl
  · exact run.ordered.left_of_append
  · intro current member
    exact run.left_pos current (List.mem_append_left rest member)
  · intro current member
    exact run.start_le current (List.mem_append_left rest member)

/-- No try is started before the call. -/
theorem le_start (run : Tries now n tries) : ∀ current ∈ tries, now ≤ current.start := by
  cases tries with
  | nil => nofun
  | cons first others =>
      have starts : (first :: others).Pairwise fun current next => current.start ≤ next.start :=
        List.isChain_iff_pairwise.mp (run.ordered.imp fun _ _ order => order.1)
      have called : now ≤ first.start := (run.first first rfl).1
      intro current member
      rcases List.mem_cons.mp member with rfl | later
      · exact called
      · exact called.trans (List.rel_of_pairwise_cons starts later)

/-- Tries that end within their time leave no less to the tries behind them. -/
theorem budgets_sorted (run : Tries now n tries) (within : WithinBudgets d tries) :
    (tries.map (Started.budget d)).Pairwise (· ≤ ·) := by
  rw [← List.isChain_iff_pairwise, List.isChain_map]
  rcases run with ⟨-, ordered, left_pos, -⟩
  unfold WithinBudgets at within
  induction within with
  | nil => exact .nil
  | singleton current => exact .singleton current
  | @cons_cons current next others ends within ih =>
      rcases List.isChain_cons_cons.mp ordered with ⟨⟨-, fewer⟩, ordered⟩
      have next_pos : 0 < next.left :=
        left_pos next (List.mem_cons_of_mem current (List.mem_cons_self ..))
      apply List.IsChain.cons_cons
      · exact Started.budget_le next_pos fewer ends
      · exact ih ordered fun other member => left_pos other (List.mem_cons_of_mem current member)

/-- The first of such tries gets the least. -/
theorem budget_first_le (run : Tries now n tries) (within : WithinBudgets d tries)
    {first : Started} (isFirst : first ∈ tries.head?) :
    ∀ current ∈ tries, first.budget d ≤ current.budget d := by
  have sorted := run.budgets_sorted within
  cases tries with
  | nil => cases isFirst
  | cons other others =>
      cases isFirst
      intro current member
      rcases List.mem_cons.mp member with rfl | later
      · exact le_refl _
      · exact List.rel_of_pairwise_cons sorted (List.mem_map_of_mem later)

end Tries

/-- The deadline of an operation and the times of its tries are computed without
overflow.  A try never gets more than the time that is left, and the last one
gets all of it.  As long as the tries end within their time, each gets no less
than those before it; and each gets at least its share of the total if the first
one is started at the call and the deadline is not cut off. -/
theorem try_budgets (total now n d : Int) (tries : List Started) (total_nonneg : 0 ≤ total)
    (now_nonneg : 0 ≤ now) (now_le : now ≤ int64Max)
    (deadline_eq : (deadline (.duration total) now).value = .timePoint d)
    (run : Tries now n tries) :
    (deadline (.duration total) now).overflow = false ∧
      (∀ current ∈ tries,
        getTryTimeConstraint (.timePoint d) current.left current.start =
            pure (.duration (current.budget d)) ∧
          (current.start ≤ d → current.start + current.budget d ≤ d) ∧
          (current.left = 1 → timeLeft d current.start = pure (current.budget d))) ∧
      ∀ front, front <+: tries → WithinBudgets d front →
        (front.map (Started.budget d)).Pairwise (· ≤ ·) ∧
          (front.head?.map Started.start = some now → now + total ≤ int64Max →
            ∀ current ∈ front, total / n ≤ current.budget d) := by
  have computed : deadline (.duration total) now =
      pure (.timePoint (min (now + total) int64Max)) := by
    rw [deadline, deadlineAfter_eq total_nonneg now_nonneg now_le, map_pure]
  rw [computed] at deadline_eq ⊢
  cases deadline_eq
  have d_le : min (now + total) int64Max ≤ int64Max := Int.min_le_right _ _
  constructor
  · rfl
  constructor
  · intro current member
    have start_nonneg : 0 ≤ current.start := now_nonneg.trans (run.le_start current member)
    have left_pos := run.left_pos current member
    refine ⟨getTryTimeConstraint_eq left_pos start_nonneg d_le, Started.start_add_budget_le, ?_⟩
    intro last
    rw [timeLeft_eq start_nonneg d_le, Started.budget, last, Int.ediv_one]
  · rintro front ⟨rest, rfl⟩ within
    have run := run.of_append
    refine ⟨run.budgets_sorted within, ?_⟩
    intro starts exact_d current member
    rcases Option.map_eq_some_iff.mp starts with ⟨first, isFirst, start_eq⟩
    have least := run.budget_first_le within isFirst current member
    have left_eq := (run.first first isFirst).2
    have whole : now + total - now = total := by omega
    have share : first.budget (min (now + total) int64Max) = total / n := by
      rw [Started.budget, start_eq, left_eq, Int.min_eq_left exact_d, whole,
        Int.max_eq_right total_nonneg]
    exact share ▸ least

/-- Half a second for three tries; the first one ends early, the second one
takes all of its time. -/
def halfSecond : List Started :=
  [⟨1000, 3⟩, ⟨100001000, 2⟩, ⟨300001000, 1⟩]

theorem halfSecond_tries : Tries 1000 3 halfSecond := by
  constructor
  · rintro first ⟨⟩
    exact ⟨le_refl _, rfl⟩
  · decide
  · decide
  · decide

theorem try_budgets_halfSecond :
    (halfSecond.map (Started.budget 500001000)).Pairwise (· ≤ ·) ∧
      ∀ current ∈ halfSecond, 500000000 / 3 ≤ current.budget 500001000 := by
  rcases try_budgets 500000000 1000 3 500001000 halfSecond (by decide) (by decide) (by decide) rfl
    halfSecond_tries with ⟨-, -, budgets⟩
  rcases budgets halfSecond (List.prefix_refl _) (by unfold WithinBudgets; decide) with
    ⟨sorted, share⟩
  exact ⟨sorted, share rfl (by decide)⟩

/-! ## The tries of a run -/

section Runs

variable {τ : Type u} {κ : Type v} (s : Strategy τ κ) (outcomes : Nat → Outcome κ)

/-- The tries of a run with the times at which they are started. -/
def startedTries (starts : List Int) (tries : List (τ × Outcome κ)) : List Started :=
  List.zipWith (fun start current => ⟨start, s.triesLeft current.1⟩) starts tries

/-- The tries of a run under any strategy have fewer and fewer tries left. -/
theorem tries_of_run {now : Int} {first : τ} {starts : List Int}
    (left_pos : ∀ current ∈ s.attempts outcomes first 1, 0 < s.triesLeft current.1)
    (ordered : starts.IsChain (· ≤ ·)) (le_start : ∀ start ∈ starts, now ≤ start)
    (start_le : ∀ start ∈ starts, start ≤ int64Max) :
    Tries now (s.triesLeft first) (startedTries s starts (s.attempts outcomes first 1)) := by
  have fewer : (s.attempts outcomes first 1).IsChain fun current next =>
      s.triesLeft next.1 < s.triesLeft current.1 :=
    (s.isChain_attempts outcomes first 1).1.imp fun _ _ again =>
      s.triesLeft_lt (Strategy.next_eq_some again).2
  have head := s.head?_attempts outcomes first 1
  generalize s.attempts outcomes first 1 = tries at *
  constructor
  · intro started isFirst
    cases starts with
    | nil => cases isFirst
    | cons start starts =>
        cases tries with
        | nil => cases isFirst
        | cons current tries =>
            cases head
            cases isFirst
            exact ⟨le_start start (List.mem_cons_self ..), rfl⟩
  · rw [List.isChain_iff_getElem] at ordered fewer ⊢
    intro i bound
    simp only [startedTries, List.length_zipWith] at bound
    simp only [startedTries, List.getElem_zipWith]
    exact ⟨ordered i (by omega), Int.ofNat_lt.mpr (fewer i (by omega))⟩
  · intro started member
    rcases List.mem_iff_getElem.mp member with ⟨i, bound, rfl⟩
    simp only [startedTries, List.getElem_zipWith]
    exact Int.ofNat_lt.mpr (left_pos _ (List.getElem_mem _))
  · intro started member
    rcases List.mem_iff_getElem.mp member with ⟨i, bound, rfl⟩
    simp only [startedTries, List.getElem_zipWith]
    exact start_le _ (List.getElem_mem _)

variable {s outcomes}

theorem triesLeft_pos_of_run
    (next_pos : ∀ {current ec conn next},
      (s.initiateNextTry current ec conn).next = some next → 0 < s.triesLeft next)
    {first : τ} (first_pos : 0 < s.triesLeft first) (i : Nat) :
    ∀ current ∈ s.attempts outcomes first i, 0 < s.triesLeft current.1 := by
  induction first, i using Strategy.induction s outcomes with
  | step first i ih =>
      cases again : s.next first (outcomes i) with
      | none =>
          rw [Strategy.attempts_of_last again]
          intro current member
          cases List.mem_singleton.mp member
          exact first_pos
      | some next =>
          rw [Strategy.attempts_of_next again]
          intro current member
          rcases List.mem_cons.mp member with rfl | later
          · exact first_pos
          · exact ih next again (next_pos (Strategy.next_eq_some again).2) current later

end Runs

section Strategies

variable {γ : Type u} {κ : Type v} {ρ : Type w} {outcomes : Nat → Outcome κ}

/-- Every try of a retry strategy is given the time of its share. -/
theorem retry_timeConstraint {isEqual : γ → ErrorCode → Bool} {options : RetryOptions γ} {n : Int}
    (positive : 0 < n) :
    ∀ current ∈ (retry isEqual options).attempts outcomes ⟨n⟩ 1,
      0 < (retry (κ := κ) isEqual options).triesLeft current.1 ∧
        ∀ t now, current.1.timeConstraint t now = getTryTimeConstraint t
          ((retry (κ := κ) isEqual options).triesLeft current.1) now := by
  intro current member
  have left_pos : 0 < (retry (κ := κ) isEqual options).triesLeft current.1 := by
    apply triesLeft_pos_of_run _ _ 1 current member
    · intro current ec conn next again
      have given := again.symm.trans (BasicTry.next_initiateNextTry current ec conn)
      split at given
      · rename_i can
        cases given
        have remain := BasicTry.one_le_of_canRetry can
        show 0 < current.adjustTriesRemain.triesRemain.toNat
        omega
      · cases given
    · show 0 < n.toNat
      omega
  refine ⟨left_pos, fun t now => ?_⟩
  have same : ((retry (κ := κ) isEqual options).triesLeft current.1 : Int) =
      current.1.triesRemain := by
    have left_pos : 0 < current.1.triesRemain.toNat := left_pos
    exact Int.toNat_of_nonneg (by omega)
  rw [BasicTry.timeConstraint, same]

/-- Every try of a role-based strategy is given the time of its share. -/
theorem roleBased_timeConstraint {roles : List ρ} {canRecover : ρ → ErrorCode → Bool}
    {closeConnection : Option Bool} (few : roles.length < 2 ^ 31) (current : RoleBasedTry roles)
    (t : TimeConstraint) (now : Int) :
    0 < (roleBased (κ := κ) roles canRecover closeConnection).triesLeft current ∧
      current.timeConstraint t now = getTryTimeConstraint t
        ((roleBased (κ := κ) roles canRecover closeConnection).triesLeft current) now := by
  have index_lt := current.index.isLt
  have left_pos : 0 < current.triesLeft := by
    rw [RoleBasedTry.triesLeft]
    omega
  refine ⟨left_pos, ?_⟩
  have left_le : current.triesLeft ≤ roles.length := Nat.sub_le _ _
  have same : int32 current.triesLeft = current.triesLeft := int32_natCast (by omega)
  rw [RoleBasedTry.timeConstraint, same]
  rfl

end Strategies

end Bozo.Failover
