import Bozo.Impl.Deadline

/-!
# The handler behind the operation and the timer

Under a deadline the handler is invoked once, behind the operation and the timer,
with the code of the one that ended first.  When the timer's handler was first, it
has cancelled the waits; if their completions start no other wait, the operation
is over when they have been delivered, and the handler has been invoked.
-/

namespace Bozo.Impl

open Bozo.Transition

/-! ## The phases of a handler -/

namespace DeadlineHandler

/-- Where a deadline handler stands when the operation has passed the given codes
to it. -/
inductive Phase : DeadlineHandler → List ErrorCode → Prop
  | waiting : Phase initial []
  | ended (ec : ErrorCode) : Phase ⟨1, ec, true, true, false, []⟩ [ec]
  | expired : Phase ⟨1, timedOut, false, false, true, []⟩ []
  | endedFirst (ec : ErrorCode) : Phase ⟨0, ec, true, false, false, [ec]⟩ [ec]
  | expiredFirst (ec : ErrorCode) : Phase ⟨0, timedOut, true, false, true, [timedOut]⟩ [ec]

variable {h next : DeadlineHandler} {codes more : List ErrorCode} {ec : ErrorCode}

theorem Phase.complete (phase : h.Phase codes) (completed : h.complete ec = some next) :
    next.Phase (codes ++ [ec]) := by
  cases phase with
  | waiting =>
      cases completed
      exact .ended ec
  | ended => cases completed
  | expired =>
      cases completed
      exact .expiredFirst ec
  | endedFirst => cases completed
  | expiredFirst => cases completed

theorem Phase.completeAll (phase : h.Phase codes) (completed : h.completeAll more = some next) :
    next.Phase (codes ++ more) := by
  induction more generalizing h codes with
  | nil =>
      cases completed
      rw [List.append_nil]
      exact phase
  | cons ec more ih =>
      rcases Option.bind_eq_some_iff.mp completed with ⟨between, once, rest⟩
      rw [List.append_cons]
      exact ih (phase.complete once) rest

theorem Phase.timer (phase : h.Phase codes) (pending : h.timerPending = true) :
    h.timer.Phase codes := by
  cases phase with
  | waiting => exact .expired
  | ended ec => exact .endedFirst ec
  | expired => cases pending
  | endedFirst => cases pending
  | expiredFirst => cases pending

theorem fired_complete (completed : h.complete ec = some next) : next.fired = h.fired := by
  unfold complete at completed
  split at completed
  · cases completed
  · split at completed
    · cases completed
      rfl
    · cases completed
      rfl

theorem fired_completeAll (completed : h.completeAll more = some next) :
    next.fired = h.fired := by
  induction more generalizing h with
  | nil =>
      cases completed
      rfl
  | cons ec more ih =>
      rcases Option.bind_eq_some_iff.mp completed with ⟨between, once, rest⟩
      rw [ih rest, fired_complete once]

/-- The first code of the operation finds the context in place. -/
theorem Phase.exists_complete (phase : h.Phase []) (ec : ErrorCode) :
    ∃ next, h.complete ec = some next := by
  cases phase with
  | waiting => exact ⟨_, rfl⟩
  | expired => exact ⟨_, rfl⟩

theorem Phase.exists_completeAll (phase : h.Phase codes) (once : (codes ++ more).length ≤ 1) :
    ∃ next, h.completeAll more = some next := by
  cases more with
  | nil => exact ⟨h, rfl⟩
  | cons ec more =>
      rw [List.length_append, List.length_cons] at once
      have first : codes = [] := List.length_eq_zero_iff.mp (by omega)
      have last : more = [] := List.length_eq_zero_iff.mp (by omega)
      subst first last
      rcases phase.exists_complete ec with ⟨next, completed⟩
      exact ⟨next, by rw [DeadlineHandler.completeAll, completed]; rfl⟩

theorem Phase.calls_of_fired (phase : h.Phase codes) (fired : h.fired = true)
    (reported : codes ≠ []) : h.calls = [timedOut] := by
  cases phase with
  | waiting => cases fired
  | ended => cases fired
  | expired => exact absurd rfl reported
  | endedFirst => cases fired
  | expiredFirst => rfl

/-- The handler is given a code behind both, and the one that ended first says
which. -/
theorem Phase.calls_eq (phase : h.Phase codes) :
    h.calls = if h.timerPending then [] else
      if h.fired then codes.map fun _ => timedOut else codes := by
  cases phase with
  | waiting => rfl
  | ended => rfl
  | expired => rfl
  | endedFirst => rfl
  | expiredFirst => rfl

/-- The timer's handler is first exactly when the operation has passed on no
code. -/
theorem Phase.fired_timer_iff (phase : h.Phase codes) (pending : h.timerPending = true) :
    h.timer.fired = true ↔ codes = [] := by
  cases phase with
  | waiting => exact iff_of_true rfl rfl
  | ended ec => exact iff_of_false Bool.false_ne_true (List.cons_ne_nil ec [])
  | expired => cases pending
  | endedFirst => cases pending
  | expiredFirst => cases pending

end DeadlineHandler

namespace Timed

variable {σ ι : Type} {M : WaitingOp σ ι}

/-- A resumed operation only adds to the codes that its handler was invoked
with. -/
def Extends (M : WaitingOp σ ι) : Prop :=
  ∀ before direction ec answers after, M.resume before direction ec answers = some after →
    M.calls before <+: M.calls after

theorem phase_begin {op : σ} {begun : Timed σ} (isBegun : begin M op = some begun) :
    begun.deadline.Phase (M.calls begun.op) := by
  rcases Option.map_eq_some_iff.mp isBegun with ⟨deadline, completed, rfl⟩
  exact DeadlineHandler.Phase.waiting.completeAll completed

theorem phase_step (keeps : Extends M) {t next : Timed σ} {event : TimedEvent ι}
    (phase : t.deadline.Phase (M.calls t.op)) (taken : step M t event = some next) :
    next.deadline.Phase (M.calls next.op) := by
  cases event with
  | ready direction ec =>
      simp only [step] at taken
      split at taken
      · cases taken
        exact phase
      · cases taken
  | deliver direction answers =>
      rcases Option.bind_eq_some_iff.mp taken with ⟨ec, queued, resumes⟩
      rcases Option.bind_eq_some_iff.mp resumes with ⟨op, resumed, completes⟩
      rcases Option.map_eq_some_iff.mp completes with ⟨deadline, completed, rfl⟩
      have extended := phase.completeAll completed
      rw [← List.prefix_iff_eq_append.mp (keeps _ _ _ _ _ resumed)]
      exact extended
  | timer =>
      simp only [step] at taken
      split at taken
      · cases taken
        exact phase.timer ‹_›
      · cases taken

/-! ## The answers -/

/-- What the answers rest on.  As long as completions are sane, the operation
reports at most one code, has at most one wait pending in each direction, takes
away no wait but the one that completed, and stops waiting only behind a call. -/
structure Relied (M : WaitingOp σ ι) (Inv : σ → Prop)
    (sane : σ → Direction → ErrorCode → ι → Prop) : Prop where
  preserved : ∀ {before direction ec answers after}, Inv before →
    sane before direction ec answers → M.resume before direction ec answers = some after → Inv after
  once : ∀ {op}, Inv op → (M.calls op).length ≤ 1
  single : ∀ {op}, Inv op → ∀ direction, M.waits op direction ≤ 1
  others : ∀ {before direction ec answers after}, Inv before →
    M.resume before direction ec answers = some after →
      ∀ other, other ≠ direction → M.waits before other ≤ M.waits after other
  ends : ∀ {op}, Inv op → (∀ direction, M.waits op direction = 0) → M.calls op ≠ []

/-- The completion that is delivered is sane. -/
def SaneDelivery (sane : σ → Direction → ErrorCode → ι → Prop) (t : Timed σ)
    (event : TimedEvent ι) : Prop :=
  ∀ direction answers ec, event = .deliver direction answers → t.queued direction = some ec →
    sane t.op direction ec answers

/-- What a handler behind a deadline is given: nothing until the operation and
the timer have both ended, and then the code of the one that was first.  The
operation reports one code at most, so that the context of the deadline is still
there whenever a sane completion that resumes the operation is delivered. -/
structure AnsweredByFirst (M : WaitingOp σ ι) (sane : σ → Direction → ErrorCode → ι → Prop)
    (t : Timed σ) : Prop where
  reported : (M.calls t.op).length ≤ 1
  calls : t.deadline.calls = if t.deadline.timerPending then [] else
    if t.deadline.fired then (M.calls t.op).map fun _ => timedOut else M.calls t.op
  fired_iff : ∀ next, step M t .timer = some next →
    (next.deadline.fired = true ↔ M.calls t.op = [])
  deliverable : ∀ direction ec answers op, t.queued direction = some ec →
    sane t.op direction ec answers → M.resume t.op direction ec answers = some op →
      ∃ next, step M t (.deliver direction answers) = some next

/-- What is kept of an operation and of the handler behind it, as long as the
completions are sane. -/
structure Held (M : WaitingOp σ ι) (Inv : σ → Prop) (t : Timed σ) : Prop where
  op : Inv t.op
  phase : t.deadline.Phase (M.calls t.op)

section Answers

variable {Inv : σ → Prop} {sane : σ → Direction → ErrorCode → ι → Prop}

/-- An operation that has reported one code at most is put under a deadline. -/
theorem exists_begin (relied : Relied M Inv sane) {op : σ} (holds : Inv op) :
    ∃ begun, begin M op = some begun ∧ Held M Inv begun ∧ begun.deadline.fired = false := by
  rcases DeadlineHandler.Phase.waiting.exists_completeAll (relied.once holds) with
    ⟨deadline, completed⟩
  have isBegun : begin M op = some ⟨op, fun _ => none, deadline, 0⟩ := by
    rw [begin]
    exact congrArg (Option.map _) completed
  exact ⟨_, isBegun, ⟨holds, phase_begin isBegun⟩, DeadlineHandler.fired_completeAll completed⟩

theorem Held.step (keeps : Extends M) (relied : Relied M Inv sane) {t next : Timed σ}
    {event : TimedEvent ι} (held : Held M Inv t) (isSane : SaneDelivery sane t event)
    (taken : step M t event = some next) : Held M Inv next where
  op := by
    cases event with
    | ready direction ec =>
        simp only [Timed.step] at taken
        split at taken
        · cases taken
          exact held.op
        · cases taken
    | deliver direction answers =>
        rcases Option.bind_eq_some_iff.mp taken with ⟨ec, queued, resumes⟩
        rcases Option.bind_eq_some_iff.mp resumes with ⟨op, resumed, completes⟩
        rcases Option.map_eq_some_iff.mp completes with ⟨deadline, completed, rfl⟩
        exact relied.preserved held.op (isSane direction answers ec rfl queued) resumed
    | timer =>
        simp only [Timed.step] at taken
        split at taken
        · cases taken
          exact held.op
        · cases taken
  phase := phase_step keeps held.phase taken

/-- The one code that a sane completion adds finds the context in place. -/
theorem Held.deliverable (keeps : Extends M) (relied : Relied M Inv sane) {t : Timed σ}
    (held : Held M Inv t) {direction : Direction} {ec : ErrorCode} {answers : ι} {op : σ}
    (queued : t.queued direction = some ec) (isSane : sane t.op direction ec answers)
    (resumed : M.resume t.op direction ec answers = some op) :
    ∃ next, Timed.step M t (.deliver direction answers) = some next := by
  have same := List.prefix_iff_eq_append.mp (keeps _ _ _ _ _ resumed)
  have once := relied.once (relied.preserved held.op isSane resumed)
  rw [← same] at once
  rcases held.phase.exists_completeAll once with ⟨deadline, completed⟩
  simp only [Timed.step, queued, Option.bind_some, resumed, completed, Option.map_some]
  exact ⟨_, rfl⟩

theorem Held.answeredByFirst (keeps : Extends M) (relied : Relied M Inv sane) {t : Timed σ}
    (held : Held M Inv t) : AnsweredByFirst M sane t where
  reported := relied.once held.op
  calls := held.phase.calls_eq
  fired_iff next taken := by
    simp only [Timed.step] at taken
    split at taken
    · cases taken
      exact held.phase.fired_timer_iff ‹_›
    · cases taken
  deliverable _ _ _ _ queued isSane resumed := held.deliverable keeps relied queued isSane resumed

/-- In every run whose completions are sane, the one that ends first answers. -/
theorem answeredByFirst_of_reachable (keeps : Extends M) (relied : Relied M Inv sane) {op : σ}
    (holds : Inv op) :
    ∃ begun, begin M op = some begun ∧ ∀ t,
      Reachable (Timed.step M) (SaneDelivery sane) begun t → AnsweredByFirst M sane t := by
  rcases exists_begin relied holds with ⟨begun, isBegun, initial, -⟩
  refine ⟨begun, isBegun, fun t reachable => ?_⟩
  have held := reachable.invariant initial fun _ _ _ held isSane taken =>
    held.step keeps relied isSane taken
  exact held.answeredByFirst keeps relied

end Answers

/-! ## The deadline bounds the operation -/

/-- A completion that resumes the operation can be delivered: the context of the
deadline is still there.  When the timer was first and every completion has been
delivered, nothing is pending and the handler has been invoked. -/
structure Bounded (M : WaitingOp σ ι) (sane : σ → Direction → ErrorCode → ι → Prop)
    (t : Timed σ) : Prop where
  deliverable : ∀ direction ec answers op, t.queued direction = some ec →
    sane t.op direction ec answers → M.resume t.op direction ec answers = some op →
      ∃ next, step M t (.deliver direction answers) = some next
  answered : t.deadline.fired = true → (∀ direction, t.queued direction = none) →
    t.deadline.calls = [timedOut] ∧ ∀ direction, M.waits t.op direction = 0

/-- Behind the timer's handler every pending wait has a completion queued. -/
def Covered (M : WaitingOp σ ι) (t : Timed σ) : Prop :=
  t.deadline.fired = true → ∀ direction, M.waits t.op direction ≠ 0 → t.queued direction ≠ none

section Bound

variable {Inv : σ → Prop} {sane asks : σ → Direction → ErrorCode → ι → Prop}

/-- A completion that asks for no other wait leaves only the wait of the other
direction, as it was. -/
theorem waits_of_nothing_started (relied : Relied M Inv sane) {before after : σ}
    {direction : Direction} {ec : ErrorCode} {answers : ι} (holds : Inv before)
    (resumed : M.resume before direction ec answers = some after)
    (nothing : started M before after = 0) :
    M.waits after direction = 0 ∧
      ∀ other, other ≠ direction → M.waits after other = M.waits before other := by
  have single := relied.single holds direction
  have others := relied.others holds resumed
  unfold started at nothing
  cases direction with
  | write =>
      have read := others .read Direction.noConfusion
      constructor
      · omega
      · rintro (_ | _) differs
        · exact absurd rfl differs
        · omega
  | read =>
      have write := others .write Direction.noConfusion
      constructor
      · omega
      · rintro (_ | _) differs
        · omega
        · exact absurd rfl differs

theorem covered_step (decides : Decides M asks) (relied : Relied M Inv sane) {t next : Timed σ}
    {event : TimedEvent ι} (holds : Inv t.op) (covered : Covered M t)
    (nothing : NothingAsked asks t event) (taken : step M t event = some next) :
    Covered M next := by
  cases event with
  | ready direction ec =>
      simp only [step] at taken
      split at taken
      · cases taken
        intro fired other pending
        by_cases same : other = direction
        · subst same
          simp
        · simpa [Function.update_of_ne same] using covered fired other pending
      · cases taken
  | deliver direction answers =>
      rcases Option.bind_eq_some_iff.mp taken with ⟨ec, queued, resumes⟩
      rcases Option.bind_eq_some_iff.mp resumes with ⟨op, resumed, completes⟩
      rcases Option.map_eq_some_iff.mp completes with ⟨deadline, completed, rfl⟩
      intro fired other pending
      have fired : t.deadline.fired = true := by
        rw [← DeadlineHandler.fired_completeAll completed]
        exact fired
      have none := mt (decides t.op direction ec answers op resumed).mp
        (nothing direction answers ec rfl fired queued)
      rcases waits_of_nothing_started relied holds resumed (not_not.mp none) with ⟨own, others⟩
      by_cases same : other = direction
      · subst same
        exact absurd own pending
      · have before : M.waits t.op other ≠ 0 := by
          rw [← others other same]
          exact pending
        simpa [Function.update_of_ne same] using covered fired other before
  | timer =>
      simp only [step] at taken
      split at taken
      · cases taken
        intro fired direction pending
        simp only at fired
        simp only [fired, if_true, cancel]
        split <;> rename_i queued
        · exact Option.some_ne_none _
        · exact fun none => queued ⟨pending, none⟩
      · cases taken

/-- What is kept along a run. -/
structure Kept (M : WaitingOp σ ι) (Inv : σ → Prop) (t : Timed σ) : Prop
    extends Held M Inv t where
  covered : Covered M t

theorem Held.kept {t : Timed σ} (held : Held M Inv t) (unfired : t.deadline.fired = false) :
    Kept M Inv t :=
  ⟨held, fun fired => absurd (unfired.symm.trans fired) Bool.false_ne_true⟩

theorem Kept.step (decides : Decides M asks) (keeps : Extends M) (relied : Relied M Inv sane)
    {t next : Timed σ} {event : TimedEvent ι} (kept : Kept M Inv t)
    (nothing : NothingAsked asks t event) (isSane : SaneDelivery sane t event)
    (taken : step M t event = some next) : Kept M Inv next where
  toHeld := kept.toHeld.step keeps relied isSane taken
  covered := covered_step decides relied kept.op kept.covered nothing taken

theorem Kept.bounded (keeps : Extends M) (relied : Relied M Inv sane) {t : Timed σ}
    (kept : Kept M Inv t) : Bounded M sane t where
  deliverable _ _ _ _ queued isSane resumed :=
    kept.toHeld.deliverable keeps relied queued isSane resumed
  answered fired delivered := by
    have none : ∀ direction, M.waits t.op direction = 0 := fun direction =>
      not_not.mp fun pending => kept.covered fired direction pending (delivered direction)
    exact ⟨kept.phase.calls_of_fired fired (relied.ends kept.op none), none⟩

/-- In every run whose completions are sane and ask for no other wait behind the
timer's handler, the deadline bounds the operation. -/
theorem bounded_of_reachable (decides : Decides M asks) (keeps : Extends M)
    (relied : Relied M Inv sane) {op : σ} (holds : Inv op) :
    ∃ begun, begin M op = some begun ∧ ∀ t,
      Reachable (Timed.step M)
        (fun t event => NothingAsked asks t event ∧ SaneDelivery sane t event) begun t →
        Bounded M sane t := by
  rcases exists_begin relied holds with ⟨begun, isBegun, held, unfired⟩
  refine ⟨begun, isBegun, fun t reachable => ?_⟩
  have kept := reachable.invariant (held.kept unfired) fun _ _ _ kept allowed taken =>
    kept.step decides keeps relied allowed.1 allowed.2 taken
  exact kept.bounded keeps relied

end Bound

end Timed

end Bozo.Impl
