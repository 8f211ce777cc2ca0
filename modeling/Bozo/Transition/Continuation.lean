import Bozo.Transition.Runs

/-!
# Machines that call back

A machine takes events and makes calls.  Behind it stands a continuation, which
answers each of its calls with a call of its own or starts another machine.  If
both machines call at most once, and have called when they are at rest, so does
the first machine with its continuation.
-/

namespace Bozo.Transition

universe u v w

/-- A machine: what an event does to its state, the calls that it has made in a
state, and the states in which nothing more is expected. -/
structure Caller (σ : Type u) (ι : Type v) (α : Type w) where
  step : σ → ι → Option σ
  calls : σ → List α
  atRest : σ → Prop

/-- The states of a machine with a continuation: the machine, the machines that
were started for its calls, and the calls that were made. -/
structure Chain (σ : Type u) (τ : Type v) (β : Type w) where
  first : σ
  rest : List τ
  calls : List β

/-- An event of the machine, with what is to be known for its calls, or of one
of the machines that were started. -/
inductive ChainEvent (ι κ ι' : Type*)
  | first (event : ι) (inputs : κ)
  | rest (position : Nat) (event : ι')

variable {σ τ ι ι' α β κ : Type*}

namespace Chain

variable (M : Caller σ ι α) (N : Caller τ ι' β) (continuation : σ → α → κ → Option (β ⊕ τ))

/-- What a call has led to. -/
def proceed (s : Chain σ τ β) : β ⊕ τ → Chain σ τ β
  | .inl call => { s with calls := s.calls ++ [call] }
  | .inr started => { s with rest := s.rest ++ [started], calls := s.calls ++ N.calls started }

/-- The continuation is given calls of the machine, one after another. -/
def answer (inputs : κ) (s : Chain σ τ β) : List α → Option (Chain σ τ β)
  | [] => some s
  | call :: calls =>
      (continuation s.first call inputs).bind fun led => answer inputs (s.proceed N led) calls

/-- The machine as it is found, with its continuation. -/
def begin (first : σ) (inputs : κ) : Option (Chain σ τ β) :=
  answer N continuation inputs ⟨first, [], []⟩ (M.calls first)

def step (s : Chain σ τ β) : ChainEvent ι κ ι' → Option (Chain σ τ β)
  | .first event inputs =>
      (M.step s.first event).bind fun first =>
        answer N continuation inputs { s with first := first }
          ((M.calls first).drop (M.calls s.first).length)
  | .rest position event =>
      s.rest[position]?.bind fun state =>
        (N.step state event).map fun next =>
          { s with
            rest := s.rest.set position next
            calls := s.calls ++ (N.calls next).drop (N.calls state).length }

/-- Nothing is expected of any of the machines. -/
def AtRest (s : Chain σ τ β) : Prop :=
  M.atRest s.first ∧ ∀ state ∈ s.rest, N.atRest state

/-- What is allowed to happen to one of the machines.  The inputs fit the state
in which the first machine calls. -/
def Allowed (allowed : σ → ι → Prop) (fits : σ → κ → Prop) (allowed' : τ → ι' → Prop)
    (s : Chain σ τ β) : ChainEvent ι κ ι' → Prop
  | .first event inputs =>
      allowed s.first event ∧ ∀ next, M.step s.first event = some next → fits next inputs
  | .rest position event => ∀ state, s.rest[position]? = some state → allowed' state event

end Chain

namespace Caller

/-- A machine with a continuation. -/
def andThen (M : Caller σ ι α) (N : Caller τ ι' β) (continuation : σ → α → κ → Option (β ⊕ τ)) :
    Caller (Chain σ τ β) (ChainEvent ι κ ι') β where
  step := Chain.step M N continuation
  calls := Chain.calls
  atRest := Chain.AtRest M N

/-- The machine makes one call at most as long as what happens is allowed, and
has made it when it is at rest. -/
structure CallsOnce (M : Caller σ ι α) (allowed : σ → ι → Prop) (Inv : σ → Prop) : Prop where
  preserved : ∀ {state event next}, Inv state → allowed state event →
    M.step state event = some next → Inv next
  adds : ∀ {state event next}, M.step state event = some next → M.calls state <+: M.calls next
  once : ∀ {state}, Inv state → (M.calls state).length ≤ 1
  called : ∀ {state}, Inv state → M.atRest state → M.calls state ≠ []

end Caller

namespace Chain

variable {M : Caller σ ι α} {N : Caller τ ι' β} {continuation : σ → α → κ → Option (β ⊕ τ)}

section Calls

theorem calls_proceed (s : Chain σ τ β) (led : β ⊕ τ) : s.calls <+: (s.proceed N led).calls := by
  cases led with
  | inl call => exact List.prefix_append _ _
  | inr started => exact List.prefix_append _ _

theorem calls_answer {inputs : κ} {s next : Chain σ τ β} {calls : List α}
    (answered : answer N continuation inputs s calls = some next) : s.calls <+: next.calls := by
  induction calls generalizing s with
  | nil =>
      cases answered
      exact List.prefix_rfl
  | cons call calls ih =>
      rcases Option.bind_eq_some_iff.mp answered with ⟨led, -, rest⟩
      exact (s.calls_proceed led).trans (ih rest)

theorem calls_step {s next : Chain σ τ β} {event : ChainEvent ι κ ι'}
    (taken : step M N continuation s event = some next) : s.calls <+: next.calls := by
  cases event with
  | first event inputs =>
      rcases Option.bind_eq_some_iff.mp taken with ⟨first, -, answered⟩
      have more := calls_answer answered
      exact more
  | rest position event =>
      rcases Option.bind_eq_some_iff.mp taken with ⟨state, -, stepped⟩
      rcases Option.map_eq_some_iff.mp stepped with ⟨later, -, rfl⟩
      exact List.prefix_append _ _

end Calls

/-! ## Where a machine with a continuation stands -/

section Stages

variable (M N continuation) (Inv : σ → Prop) (Inv' : τ → Prop) (allowed : σ → ι → Prop)
  (allowed' : τ → ι' → Prop)

/-- The calls of the machine, what was started for them, and the calls that were
made: there is nothing yet, or the one call was answered, or it has started the
one machine that goes on.  The machine itself may have gone on from the state in
which it called. -/
inductive Stage (first : σ) : List α → List τ → List β → Prop
  | waiting : Stage first [] [] []
  | answered {state : σ} {call : α} {inputs : κ} {answer : β} (holds : Inv state)
      (calls : M.calls state = [call]) (later : Reachable M.step allowed state first)
      (led : continuation state call inputs = some (.inl answer)) :
      Stage first [call] [] [answer]
  | started {state : σ} {call : α} {inputs : κ} {begun now : τ} (holds : Inv state)
      (calls : M.calls state = [call]) (later : Reachable M.step allowed state first)
      (led : continuation state call inputs = some (.inr begun)) (begins : Inv' begun)
      (reached : Reachable N.step allowed' begun now) : Stage first [call] [now] (N.calls now)

structure Sound (s : Chain σ τ β) : Prop where
  first : Inv s.first
  stage : Stage M N continuation Inv Inv' allowed allowed' s.first (M.calls s.first) s.rest s.calls

end Stages

section Steps

variable {Inv : σ → Prop} {Inv' : τ → Prop} {allowed : σ → ι → Prop} {fits : σ → κ → Prop}
  {allowed' : τ → ι' → Prop}

/-- A machine that calls once at most has made its call before a step, or makes
it in that step, or does not make it yet. -/
theorem calls_first (onceM : M.CallsOnce allowed Inv) {state next : σ} {event : ι}
    (holds : Inv next) (taken : M.step state event = some next) :
    M.calls next = M.calls state ∨ M.calls state = [] ∧ ∃ call, M.calls next = [call] := by
  rcases onceM.adds taken with ⟨added, same⟩
  have once := onceM.once holds
  rw [← same] at once ⊢
  cases added with
  | nil => exact .inl (List.append_nil _)
  | cons call more =>
      rw [List.length_append, List.length_cons] at once
      have none : M.calls state = [] := List.length_eq_zero_iff.mp (by omega)
      have last : more = [] := List.length_eq_zero_iff.mp (by omega)
      rw [none, last]
      exact .inr ⟨rfl, call, rfl⟩

/-- The call of a machine, answered by its continuation. -/
theorem Sound.answer (starts : ∀ {state call inputs begun}, Inv state → fits state inputs →
      M.calls state = [call] → continuation state call inputs = some (.inr begun) → Inv' begun)
    {first : σ} {inputs : κ} {s : Chain σ τ β} (holds : Inv first) (isFit : fits first inputs)
    (once : (M.calls first).length ≤ 1)
    (answered : Chain.answer N continuation inputs ⟨first, [], []⟩ (M.calls first) = some s) :
    s.Sound M N continuation Inv Inv' allowed allowed' := by
  generalize calls : M.calls first = known at once answered
  match known with
  | [] =>
      cases answered
      refine ⟨holds, ?_⟩
      rw [calls]
      exact .waiting
  | [call] =>
      rcases Option.bind_eq_some_iff.mp answered with ⟨led, continued, rest⟩
      cases led with
      | inl reply =>
          cases rest
          refine ⟨holds, ?_⟩
          show Stage M N continuation Inv Inv' allowed allowed' first (M.calls first) [] [reply]
          rw [calls]
          exact .answered holds calls .refl continued
      | inr begun =>
          cases rest
          refine ⟨holds, ?_⟩
          show Stage M N continuation Inv Inv' allowed allowed' first (M.calls first) [begun]
            (N.calls begun)
          rw [calls]
          exact .started holds calls .refl continued (starts holds isFit calls continued) .refl
  | _ :: _ :: _ => exact absurd once (by simp)

/-- A step of the machine in which it makes no call. -/
theorem Stage.tail {state first : σ} {event : ι} {calls : List α} {rest : List τ}
    {answers : List β}
    (stage : Stage M N continuation Inv Inv' allowed allowed' state calls rest answers)
    (isAllowed : allowed state event) (taken : M.step state event = some first) :
    Stage M N continuation Inv Inv' allowed allowed' first calls rest answers := by
  cases stage with
  | waiting => exact .waiting
  | answered holds called later led =>
      exact .answered holds called (later.tail isAllowed taken) led
  | started holds called later led begins reached =>
      exact .started holds called (later.tail isAllowed taken) led begins reached

theorem Sound.step (onceM : M.CallsOnce allowed Inv) (onceN : N.CallsOnce allowed' Inv')
    (starts : ∀ {state call inputs begun}, Inv state → fits state inputs →
      M.calls state = [call] → continuation state call inputs = some (.inr begun) → Inv' begun)
    {s next : Chain σ τ β} {event : ChainEvent ι κ ι'}
    (sound : s.Sound M N continuation Inv Inv' allowed allowed')
    (isAllowed : s.Allowed M allowed fits allowed' event)
    (taken : Chain.step M N continuation s event = some next) :
    next.Sound M N continuation Inv Inv' allowed allowed' := by
  rcases s with ⟨first, rest, calls⟩
  cases event with
  | first event inputs =>
      rcases Option.bind_eq_some_iff.mp taken with ⟨later, stepped, answered⟩
      have holds := onceM.preserved sound.first isAllowed.1 stepped
      rcases calls_first onceM holds stepped with same | ⟨silent, call, called⟩
      · rw [same, List.drop_length] at answered
        cases answered
        refine ⟨holds, ?_⟩
        show Stage M N continuation Inv Inv' allowed allowed' later (M.calls later) rest calls
        rw [same]
        exact sound.stage.tail isAllowed.1 stepped
      · have stage := sound.stage
        simp only [silent] at stage answered
        cases stage
        exact Sound.answer starts holds (isAllowed.2 later stepped) (onceM.once holds) answered
  | rest position event =>
      rcases Option.bind_eq_some_iff.mp taken with ⟨state, here, stepped⟩
      rcases Option.map_eq_some_iff.mp stepped with ⟨later, moved, rfl⟩
      refine ⟨sound.first, ?_⟩
      have stage := sound.stage
      have onlyAllowed := isAllowed state here
      simp only at stage here ⊢
      generalize M.calls first = known at stage ⊢
      cases stage with
      | waiting => cases here
      | answered => cases here
      | @started origin call inputs begun now holds called later led begins reached =>
          cases position with
          | succ position => cases here
          | zero =>
              cases here
              rw [List.prefix_iff_eq_append.mp (onceN.adds moved)]
              exact .started holds called later led begins (reached.tail onlyAllowed moved)

end Steps

end Chain

/-- A machine with a continuation makes one call at most, and has made it when
all machines are at rest. -/
theorem Caller.CallsOnce.andThen {M : Caller σ ι α} {N : Caller τ ι' β}
    {continuation : σ → α → κ → Option (β ⊕ τ)} {Inv : σ → Prop} {Inv' : τ → Prop}
    {allowed : σ → ι → Prop} {fits : σ → κ → Prop} {allowed' : τ → ι' → Prop}
    (onceM : M.CallsOnce allowed Inv) (onceN : N.CallsOnce allowed' Inv')
    (starts : ∀ {state call inputs begun}, Inv state → fits state inputs →
      M.calls state = [call] → continuation state call inputs = some (.inr begun) → Inv' begun) :
    (M.andThen N continuation).CallsOnce (Chain.Allowed M allowed fits allowed')
      (Chain.Sound M N continuation Inv Inv' allowed allowed') where
  preserved sound isAllowed taken := sound.step onceM onceN starts isAllowed taken
  adds taken := Chain.calls_step taken
  once {s} sound := by
    rcases s with ⟨first, rest, calls⟩
    have stage := sound.stage
    simp only at stage
    generalize M.calls first = known at stage
    cases stage with
    | waiting => exact Nat.zero_le 1
    | answered => exact Nat.le_refl 1
    | started holds called later led begins reached =>
        exact onceN.once (reached.invariant begins fun _ _ _ => onceN.preserved)
  called {s} sound atRest := by
    rcases s with ⟨first, rest, calls⟩
    have called := onceM.called sound.first atRest.1
    have others := atRest.2
    have stage := sound.stage
    simp only at stage called others
    generalize M.calls first = known at stage called
    cases stage with
    | waiting => exact absurd rfl called
    | answered => exact List.cons_ne_nil _ _
    | started holds called later led begins reached =>
        exact onceN.called (reached.invariant begins fun _ _ _ => onceN.preserved)
          (others _ (List.mem_singleton_self _))

end Bozo.Transition
