import Bozo.Impl.ConnectionPool
import Bozo.Impl.DeadlineAnswers
import Bozo.Impl.Guarded
import Bozo.Impl.ResultStatus

/-!
# Requests over a provider

`async_request` asks its provider for a connection, and sends the query over the
one that it is given.  From the call of `async_request` on, the queue of a pool,
a connection attempt with its request for oids, the request itself and a timer
for each of the last two take their turns; the handler of the user is invoked
once.
-/

namespace Bozo.Impl

open Bozo.Io
open Bozo.Transition

variable (process : PgResult → Option String)

/-! ## Providers -/

/-- The answers of `PQconnectStart`, with the status of the handle, and of the
assignment of the stream. -/
structure ConnectStart where
  status : Option ConnStatus
  assign : ErrorCode

/-- `connection_info::operator()`: `async_connect` on a new connection. -/
def startConnect (isLimited : Bool) (types : List Registered) (start : ConnectStart) :
    Option (Guarded OidConnect) :=
  ((Connect.initial ⟨none, registerTypes types, ""⟩).step
    (.perform start.status start.assign)).bind fun c =>
      Guarded.begin (connectOp process) isLimited ⟨c, none⟩

/-- The connection that the handler of an attempt is called with. -/
def Guarded.connection (g : Guarded OidConnect) : Option Rep :=
  some g.op.connect.conn

/-- What a request in the queue of a pool is answered with: a handle that may be
empty, with the status that its native handle has. -/
structure PoolAnswer where
  ec : ErrorCode
  handle : Option Rep

/-- The queue of the pool answers once. -/
def queue : Caller (Option PoolAnswer) PoolAnswer PoolAnswer where
  step state answer := if state.isSome then none else some (some answer)
  calls := Option.toList
  atRest state := state.isSome = true

/-- `pooled_connection_wrapper::operator()`. -/
def pooledConnectionOp (isLimited : Bool) (types : List Registered) (answer : PoolAnswer)
    (start : ConnectStart) : Option (ErrorCode ⊕ Guarded OidConnect) :=
  if answer.ec.failed then
    some (.inl answer.ec)
  else if answer.handle.any fun rep => !connectionStatusBad rep.native then
    some (.inl answer.ec)
  else
    (startConnect process isLimited types start).map .inr

/-- `connection_pool::operator()`. -/
def pooledConnection (isLimited : Bool) (types : List Registered) :
    Caller (Chain (Option PoolAnswer) (Guarded OidConnect) ErrorCode)
      (ChainEvent PoolAnswer ConnectStart (GuardedEvent ConnectAnswers)) ErrorCode :=
  queue.andThen (Guarded.caller (connectOp process)) fun _ answer start =>
    pooledConnectionOp process isLimited types answer start

/-- The connection that the handler of the pool is called with: a null pointer
after an error of the queue; the wrapper moves that of an attempt into the
handle. -/
def pooledRep (s : Chain (Option PoolAnswer) (Guarded OidConnect) ErrorCode) : Option Rep :=
  match s.rest with
  | [] => s.first.bind fun answer => if answer.ec.failed then none else answer.handle
  | attempt :: _ => attempt.connection

/-! ## Requests -/

def RequestStart.event (start : RequestStart) : Event :=
  .start start.setNonblocking start.sendQueryParams start.flush start.answers

/-- `async_request_op::operator()`. -/
def asyncRequestOp (isLimited : Bool) (ec : ErrorCode) (conn : Option Rep)
    (start : RequestStart) : Option (ErrorCode ⊕ Guarded Request) :=
  if ec.failed then
    some (.inl ec)
  else
    conn.bind fun conn =>
      ((Request.initial conn.errorContext).step process start.event).bind fun r =>
        (Guarded.begin (requestOp process) isLimited r).map .inr

section Providers

variable {σ ι : Type}

/-- `async_request`, over a provider whose connection is found in its state. -/
def asyncRequest (isLimited : Bool) (provider : Caller σ ι ErrorCode)
    (connection : σ → Option Rep) :
    Caller (Chain σ (Guarded Request) ErrorCode)
      (ChainEvent ι RequestStart (GuardedEvent RequestAnswers)) ErrorCode :=
  provider.andThen (Guarded.caller (requestOp process)) fun state ec start =>
    asyncRequestOp process isLimited ec (connection state) start

/-- The start of a request does not end it with success while a wait for
writability is pending. -/
def RequestStart.Flushed (start : RequestStart) : Prop :=
  FlushedSuccess process (Request.initial "") start.event

/-- What may happen to a connection attempt. -/
def connectAllowed : Guarded OidConnect → GuardedEvent ConnectAnswers → Prop :=
  Guarded.Allowed OidConnect.Asks fun s _ ec answers => s.Flushed process ec answers

/-- What may happen to a request over a provider. -/
def requestAllowed (provider : Caller σ ι ErrorCode) (allowed : σ → ι → Prop) :
    Chain σ (Guarded Request) ErrorCode →
      ChainEvent ι RequestStart (GuardedEvent RequestAnswers) → Prop :=
  Chain.Allowed provider allowed (fun _ start => start.Flushed process)
    (Guarded.Allowed Request.Asks fun r _ ec answers => FlushedSuccess process r (answers.event ec))

/-- What the handler is given.  It is invoked once at most, and has been invoked
when nothing is pending; with the error of the provider, as long as no connection
was given.  There is one request at most, over the connection that is found in the
provider's state, and it is what the handler hears of; a success stands for its
results. -/
structure Served (provider : Caller σ ι ErrorCode) (connection : σ → Option Rep)
    (Gives : σ → Rep → Prop) (s : Chain σ (Guarded Request) ErrorCode) : Prop where
  once : s.calls.length ≤ 1
  answered : s.AtRest provider (Guarded.caller (requestOp process)) → s.calls ≠ []
  unprovided : s.rest = [] → ∀ ec ∈ s.calls, ec.failed = true ∧ provider.calls s.first = [ec]
  requested : ∀ g ∈ s.rest, s.rest = [g] ∧ s.calls = g.calls (requestOp process) ∧
    (∃ ec, provider.calls s.first = [ec] ∧ ec.failed = false) ∧
    ∃ conn, connection s.first = some conn ∧ Gives s.first conn ∧
      Reachable (Request.step process) Any (Request.initial conn.errorContext) g.op
  succeeded : ∀ ec ∈ s.calls, ec.failed = false →
    ∃ g, s.rest = [g] ∧ TestsFalse process g.op.fetched

/-- A provider that calls once gives the connection that is found in its state,
which then stays the same. -/
structure Provides (provider : Caller σ ι ErrorCode) (allowed : σ → ι → Prop) (Inv : σ → Prop)
    (connection : σ → Option Rep) (Gives : σ → Rep → Prop) : Prop where
  once : provider.CallsOnce allowed Inv
  stays : ∀ {state event next}, Inv state → allowed state event → provider.calls state ≠ [] →
    provider.step state event = some next → connection next = connection state
  gives : ∀ {state ec conn}, Inv state → provider.calls state = [ec] → ec.failed = false →
    connection state = some conn → Gives state conn

variable {process} {provider : Caller σ ι ErrorCode} {connection : σ → Option Rep}
  {isLimited : Bool} {Inv : σ → Prop} {allowed : σ → ι → Prop} {Gives : σ → Rep → Prop}

/-- A request that is started is that of the connection. -/
theorem asyncRequestOp_eq_inr {ec : ErrorCode} {conn : Option Rep} {start : RequestStart}
    {begun : Guarded Request}
    (started : asyncRequestOp process isLimited ec conn start = some (.inr begun)) :
    ec.failed = false ∧ ∃ rep r, conn = some rep ∧
      (Request.initial rep.errorContext).step process start.event = some r ∧
      Guarded.begin (requestOp process) isLimited r = some begun := by
  unfold asyncRequestOp at started
  split at started <;> rename_i failed
  · cases started
  · rcases Option.bind_eq_some_iff.mp started with ⟨rep, here, rest⟩
    rcases Option.bind_eq_some_iff.mp rest with ⟨r, taken, begins⟩
    rcases Option.map_eq_some_iff.mp begins with ⟨g, isBegun, same⟩
    cases same
    exact ⟨Bool.eq_false_iff.mpr failed, rep, r, here, taken, isBegun⟩

theorem asyncRequestOp_eq_inl {ec answer : ErrorCode} {conn : Option Rep} {start : RequestStart}
    (answered : asyncRequestOp process isLimited ec conn start = some (.inl answer)) :
    ec.failed = true ∧ answer = ec := by
  unfold asyncRequestOp at answered
  split at answered <;> rename_i failed
  · cases answered
    exact ⟨failed, rfl⟩
  · rcases Option.bind_eq_some_iff.mp answered with ⟨rep, here, rest⟩
    rcases Option.bind_eq_some_iff.mp rest with ⟨r, taken, begins⟩
    rcases Option.map_eq_some_iff.mp begins with ⟨g, isBegun, same⟩
    cases same

/-- What is kept of a request over a provider. -/
abbrev ProvidedSound (process : PgResult → Option String) (isLimited : Bool)
    (provider : Caller σ ι ErrorCode) (connection : σ → Option Rep) (allowed : σ → ι → Prop)
    (Inv : σ → Prop) : Chain σ (Guarded Request) ErrorCode → Prop :=
  Chain.Sound provider (Guarded.caller (requestOp process))
    (fun state ec start => asyncRequestOp process isLimited ec (connection state) start) Inv
    (Guarded.Kept (requestOp process) Request.Accountable) allowed
    (Guarded.Allowed Request.Asks fun r _ ec answers => FlushedSuccess process r (answers.event ec))

theorem requestCaller_callsOnce :
    (Guarded.caller (requestOp process)).CallsOnce
      (Guarded.Allowed Request.Asks fun r _ ec answers =>
        FlushedSuccess process r (answers.event ec))
      (Guarded.Kept (requestOp process) Request.Accountable) :=
  Guarded.callsOnce requestOp_decides requestOp_extends requestOp_relied

/-- A request that is started is accounted for. -/
theorem kept_of_asyncRequestOp {state : σ} {ec : ErrorCode} {start : RequestStart}
    {begun : Guarded Request} (flushed : start.Flushed process)
    (started : asyncRequestOp process isLimited ec (connection state) start = some (.inr begun)) :
    begun.Kept (requestOp process) Request.Accountable := by
  rcases asyncRequestOp_eq_inr started with ⟨-, rep, r, -, taken, isBegun⟩
  have here : FlushedSuccess process (Request.initial rep.errorContext) start.event := flushed
  exact .begin (Request.Accountable.start here taken) isBegun

theorem asyncRequest_callsOnce (onceP : provider.CallsOnce allowed Inv) :
    (asyncRequest process isLimited provider connection).CallsOnce
      (requestAllowed process provider allowed)
      (ProvidedSound process isLimited provider connection allowed Inv) :=
  onceP.andThen requestCaller_callsOnce fun _ flushed _ started =>
    kept_of_asyncRequestOp flushed started

/-- What is done by a request that was started for a connection. -/
theorem reachable_of_asyncRequestOp {allowed : Guarded Request → GuardedEvent RequestAnswers → Prop}
    {ec : ErrorCode} {conn : Option Rep} {start : RequestStart} {begun now : Guarded Request}
    (started : asyncRequestOp process isLimited ec conn start = some (.inr begun))
    (reached : Reachable (Guarded.caller (requestOp process)).step allowed begun now) :
    ec.failed = false ∧ ∃ rep, conn = some rep ∧
      Reachable (Request.step process) Any (Request.initial rep.errorContext) now.op := by
  rcases asyncRequestOp_eq_inr started with ⟨succeeds, rep, r, here, taken, isBegun⟩
  refine ⟨succeeds, rep, here, ?_⟩
  have first : Reachable (Request.step process) Any (Request.initial rep.errorContext)
      begun.op := by
    rw [Guarded.op_begin isBegun]
    exact .tail .refl trivial taken
  have later : Reachable (Request.step process) Any begun.op now.op :=
    Guarded.reachable_op (fun resumed => ⟨_, Request.resume_eq_some resumed⟩) reached
  exact first.trans later

/-- The connection that a provider has called with is still found in its state. -/
theorem Provides.connection_eq (provides : Provides provider allowed Inv connection Gives)
    {state later : σ} {conn : Option Rep} (holds : Inv state) (called : provider.calls state ≠ [])
    (found : connection state = conn) (reachable : Reachable provider.step allowed state later) :
    connection later = conn := by
  suffices kept : Inv later ∧ provider.calls later ≠ [] ∧ connection later = conn from kept.2.2
  induction reachable with
  | refl => exact ⟨holds, called, found⟩
  | tail _ isAllowed taken ih =>
      rcases ih with ⟨holds, called, same⟩
      refine ⟨provides.once.preserved holds isAllowed taken, fun none => called ?_,
        (provides.stays holds isAllowed called taken).trans same⟩
      have added := provides.once.adds taken
      rw [none] at added
      exact List.prefix_nil.mp added

/-- What is kept of a request over a provider says what its handler is given. -/
theorem served_of_sound (provides : Provides provider allowed Inv connection Gives)
    {s : Chain σ (Guarded Request) ErrorCode}
    (sound : ProvidedSound process isLimited provider connection allowed Inv s) :
    Served process provider connection Gives s := by
  have whole : (asyncRequest process isLimited provider connection).CallsOnce
      (requestAllowed process provider allowed) _ := asyncRequest_callsOnce provides.once
  have once := whole.once sound
  have called := whole.called sound
  have present := sound.first
  rcases s with ⟨first, rest, calls⟩
  have stage := sound.stage
  simp only at stage present
  generalize known : provider.calls first = reported at stage
  cases stage with
  | waiting =>
      refine ⟨once, called, fun _ ec member => ?_, fun g member => ?_, fun ec member => ?_⟩
      · cases member
      · cases member
      · cases member
  | @answered origin call inputs answer holds here later led =>
      rcases asyncRequestOp_eq_inl led with ⟨failed, rfl⟩
      refine ⟨once, called, fun _ ec member => ?_, fun g member => ?_, fun ec member succeeds => ?_⟩
      · cases List.mem_singleton.mp member
        exact ⟨failed, known⟩
      · cases member
      · cases List.mem_singleton.mp member
        rw [failed] at succeeds
        cases succeeds
  | @started origin call inputs begun now holds here later led begins reached =>
      rcases reachable_of_asyncRequestOp led reached with ⟨succeeds, conn, given, requested⟩
      have kept : now.Kept (requestOp process) Request.Accountable :=
        reached.invariant begins fun _ _ _ => requestCaller_callsOnce.preserved
      have callsHere : provider.calls origin ≠ [] := by
        rw [here]
        exact List.cons_ne_nil _ _
      have found : connection first = some conn :=
        provides.connection_eq holds callsHere given later
      have gives := provides.gives present known succeeds found
      refine ⟨once, called, fun none => ?_, fun g member => ?_, fun ec member testsFalse => ?_⟩
      · cases none
      · cases List.mem_singleton.mp member
        exact ⟨rfl, rfl, ⟨call, known, succeeds⟩, conn, found, gives, requested⟩
      · have reported := kept.succeeded member testsFalse
        exact ⟨now, rfl, (truthful_of_reachable requested).reported ec reported testsFalse⟩

end Providers

/-! ## Connections that are given -/

/-- Whatever run of its steps an attempt has come here by, in that run a poll has
found the connection established, and there was an oid for every registered
type. -/
structure Established (types : List Registered) (c : Connect) : Prop where
  reached : c.Reached ⟨none, registerTypes types, ""⟩
  established : ∀ events,
    run Connect.step (Connect.initial ⟨none, registerTypes types, ""⟩) events = some c →
      Connect.EstablishedBy types events c.conn
  complete : Complete types c.conn.oidMap

/-- The connection of an attempt that has established it. -/
def Guarded.Gives (types : List Registered) (g : Guarded OidConnect) (conn : Rep) : Prop :=
  conn = g.op.connect.conn ∧ Established types g.op.connect

/-- The connection of a pool: the handle that its queue has answered with, which is
not bad, or the connection of its attempt. -/
def PoolGives (types : List Registered)
    (s : Chain (Option PoolAnswer) (Guarded OidConnect) ErrorCode) (conn : Rep) : Prop :=
  (s.rest = [] ∧ ∃ answer, s.first = some answer ∧ answer.ec.failed = false ∧
      answer.handle = some conn ∧ connectionStatusBad conn.native = false) ∨
    ∃ attempt, s.rest = [attempt] ∧ attempt.Gives types conn

section Given

variable {process} {isLimited : Bool} {types : List Registered}

theorem registerTypes_types (types : List Registered) :
    (registerTypes types).map OidEntry.type = types := by
  simp [registerTypes, Function.comp_def]

/-- The oids of an answer complete the map. -/
theorem Connect.EstablishedBy.complete {past : List ConnectEvent} {conn : Rep}
    (established : EstablishedBy types past conn)
    (types_eq : conn.oidMap.map OidEntry.type = types) : Complete types conn.oidMap := by
  refine ⟨types_eq, fun entry member => ?_⟩
  by_cases none : types = []
  · rw [none, List.map_eq_nil_iff] at types_eq
    rw [types_eq] at member
    cases member
  · rcases established.answered none with ⟨code, context, oids, -, -, -, oid_ne, map⟩
    rw [map, ← List.map_uncurry_zip_eq_zipWith] at member
    rcases List.mem_map.mp member with ⟨⟨type, oid⟩, zipped, rfl⟩
    exact oid_ne oid (List.of_mem_zip zipped).2

/-- An attempt that reports a success has established its connection. -/
theorem Connect.Reached.established {c : Connect} {ec : ErrorCode}
    (reached : c.Reached ⟨none, registerTypes types, ""⟩) (called : ec ∈ c.calls)
    (succeeds : ec.failed = false) : Established types c := by
  have types_eq := reached.sound.types_eq
  simp only [registerTypes_types] at types_eq
  have history : ∀ events,
      run Connect.step (Connect.initial ⟨none, registerTypes types, ""⟩) events = some c →
        Connect.EstablishedBy types events c.conn := by
    intro events ran
    rcases Connect.begun_of_run ran with ⟨-, rfl⟩ | ⟨-, accounted⟩
    · cases called
    · have truthful := accounted.truthful ec called succeeds
      simp only [registerTypes_types] at truthful
      exact truthful
  rcases reached with ⟨event, events, ran⟩
  exact ⟨⟨event, events, ran⟩, history, (history _ ran).complete types_eq⟩

/-- What is kept of a connection attempt. -/
abbrev AttemptKept (process : PgResult → Option String) (types : List Registered) :
    Guarded OidConnect → Prop :=
  Guarded.Kept (connectOp process) (OidConnect.Accountable ⟨none, registerTypes types, ""⟩)

theorem connectCaller_callsOnce :
    (Guarded.caller (connectOp process)).CallsOnce (connectAllowed process)
      (AttemptKept process types) :=
  Guarded.callsOnce connectOp_decides connectOp_extends connectOp_relied

theorem kept_of_startConnect {start : ConnectStart} {g : Guarded OidConnect}
    (started : startConnect process isLimited types start = some g) :
    AttemptKept process types g := by
  rcases Option.bind_eq_some_iff.mp started with ⟨c, performed, begun⟩
  exact .begin (OidConnect.Accountable.perform performed) begun

/-- An attempt that calls its handler without an error has established its
connection. -/
theorem gives_of_kept {g : Guarded OidConnect} {ec : ErrorCode} {conn : Rep}
    (kept : AttemptKept process types g) (called : g.calls (connectOp process) = [ec])
    (succeeds : ec.failed = false) (found : g.connection = some conn) : g.Gives types conn := by
  have reported : ec ∈ g.calls (connectOp process) := by
    rw [called]
    exact List.mem_singleton_self ec
  cases found
  exact ⟨rfl, kept.inv.reached.established (kept.succeeded reported succeeds) succeeds⟩

/-- An attempt that has called keeps its connection, whatever becomes of its
request for oids. -/
theorem OidConnect.Accountable.connect_resume {conn : Rep} {s next : OidConnect}
    {direction : Direction} {ec : ErrorCode} {answers : ConnectAnswers}
    (accountable : s.Accountable conn) (flushed : s.Flushed process ec answers)
    (called : s.connect.calls ≠ [])
    (resumed : s.resume process direction ec answers = some next) : next.connect = s.connect := by
  have outstanding := accountable.outstanding
  rcases s with ⟨c, request⟩
  rcases outstanding with ⟨-, -, none⟩ | ⟨-, -, none⟩ | ⟨noWait, noRequest, -⟩
  · exact absurd none called
  · exact absurd none called
  cases request with
  | none =>
      rcases Option.bind_eq_some_iff.mp resumed with ⟨polled, taken, -⟩
      rcases Nat.add_eq_zero_iff.mp noWait with ⟨noWrite, noRead⟩
      simp only at noWrite noRead
      cases direction with
      | write =>
          simp only [Direction.polled, Connect.step, noWrite, if_true] at taken
          cases taken
      | read =>
          simp only [Direction.polled, Connect.step, noRead, if_true] at taken
          cases taken
  | some r =>
      rcases Option.bind_eq_some_iff.mp resumed with ⟨later, requested, followed⟩
      unfold OidConnect.follow at followed
      split at followed
      · cases followed
        rfl
      · rcases Option.map_eq_some_iff.mp followed with ⟨answered, taken, rfl⟩
        -- the answer to the request has been taken
        rw [Connect.step, if_pos noRequest] at taken
        cases taken

theorem attempt_provides :
    Provides (Guarded.caller (connectOp process)) (connectAllowed process)
      (AttemptKept process types) Guarded.connection (Guarded.Gives types) where
  once := connectCaller_callsOnce
  stays {g event next} kept isAllowed called taken := by
    rcases Guarded.op_step isAllowed taken with same | ⟨direction, ec, answers, flushed, resumed⟩
    · exact congrArg (fun op => some op.connect.conn) same
    · have same := kept.inv.connect_resume flushed (kept.called called) resumed
      exact congrArg (fun connect => some connect.conn) same
  gives := gives_of_kept

theorem queue_callsOnce : queue.CallsOnce Any fun _ => True where
  preserved _ _ _ := trivial
  adds {state event next} taken := by
    cases state with
    | none =>
        cases taken
        exact List.nil_prefix
    | some answer => cases taken
  once {state} _ := by
    cases state with
    | none => exact Nat.zero_le 1
    | some answer => exact Nat.le_refl 1
  called {state} _ answered := by
    cases state with
    | none => cases answered
    | some answer => exact List.cons_ne_nil _ _

/-- What is kept of a request for a connection of a pool. -/
abbrev PooledSound (process : PgResult → Option String) (isLimited : Bool)
    (types : List Registered) :
    Chain (Option PoolAnswer) (Guarded OidConnect) ErrorCode → Prop :=
  Chain.Sound queue (Guarded.caller (connectOp process))
    (fun _ answer start => pooledConnectionOp process isLimited types answer start) (fun _ => True)
    (AttemptKept process types) Any (connectAllowed process)

/-- What may happen to a request for a connection of a pool. -/
def poolAllowed (process : PgResult → Option String) :
    Chain (Option PoolAnswer) (Guarded OidConnect) ErrorCode →
      ChainEvent PoolAnswer ConnectStart (GuardedEvent ConnectAnswers) → Prop :=
  Chain.Allowed queue Any (fun _ _ => True) (connectAllowed process)

theorem pooledConnection_callsOnce :
    (pooledConnection process isLimited types).CallsOnce (poolAllowed process)
      (PooledSound process isLimited types) := by
  apply queue_callsOnce.andThen connectCaller_callsOnce
  intro state answer start begun _ _ _ started
  unfold pooledConnectionOp at started
  split at started
  · cases started
  · split at started
    · cases started
    · rcases Option.map_eq_some_iff.mp started with ⟨g, isStarted, same⟩
      cases same
      exact kept_of_startConnect isStarted

/-- The connection of a pool is one that was established, or it was put back and
its handle is not bad. -/
theorem gives_of_pooledSound
    {s : Chain (Option PoolAnswer) (Guarded OidConnect) ErrorCode} {ec : ErrorCode} {conn : Rep}
    (sound : PooledSound process isLimited types s) (called : s.calls = [ec])
    (succeeds : ec.failed = false) (found : pooledRep s = some conn) : PoolGives types s conn := by
  rcases s with ⟨first, rest, calls⟩
  have stage := sound.stage
  simp only at stage called
  generalize known : queue.calls first = reported at stage
  cases stage with
  | waiting => cases called
  | @answered origin answer inputs reply holds here later led =>
      cases called
      have queued : first = some answer := by
        cases first with
        | none => cases known
        | some other =>
            cases known
            rfl
      subst queued
      unfold pooledConnectionOp at led
      split at led <;> rename_i failed
      · cases led
        rw [failed] at succeeds
        cases succeeds
      · have handle : answer.handle = some conn := (if_neg failed).symm.trans found
        rw [handle] at led
        split at led <;> rename_i usable
        · refine .inl ⟨rfl, answer, rfl, Bool.eq_false_iff.mpr failed, handle, ?_⟩
          simpa using usable
        · rcases Option.map_eq_some_iff.mp led with ⟨g, -, same⟩
          cases same
  | @started origin answer inputs begun now holds here later led begins reached =>
      have kept : AttemptKept process types now :=
        reached.invariant begins fun _ _ _ => connectCaller_callsOnce.preserved
      exact .inr ⟨now, rfl, gives_of_kept kept called succeeds found⟩

theorem pool_provides :
    Provides (pooledConnection process isLimited types) (poolAllowed process)
      (PooledSound process isLimited types) pooledRep (PoolGives types) where
  once := pooledConnection_callsOnce
  stays {s event next} sound isAllowed called taken := by
    rcases s with ⟨first, rest, calls⟩
    have stage := sound.stage
    simp only at stage
    generalize known : queue.calls first = reported at stage
    cases event with
    | first event inputs =>
        rcases Option.bind_eq_some_iff.mp taken with ⟨answered, stepped, -⟩
        cases stage with
        | waiting => exact absurd rfl called
        | answered | started =>
            cases first with
            | none => cases known
            | some answer => cases stepped
    | rest position event =>
        rcases Option.bind_eq_some_iff.mp taken with ⟨attempt, here, rest⟩
        rcases Option.map_eq_some_iff.mp rest with ⟨moved, stepped, rfl⟩
        cases stage with
        | waiting => cases here
        | answered => cases here
        | @started origin answer inputs begun now holds there later led begins reached =>
            cases position with
            | succ position => cases here
            | zero =>
                cases here
                have kept : AttemptKept process types attempt :=
                  reached.invariant begins fun _ _ _ => connectCaller_callsOnce.preserved
                exact attempt_provides.stays kept (isAllowed attempt rfl) called stepped
  gives := gives_of_pooledSound

end Given

/-! ## Runs -/

/-- The connection is established at once. -/
def establishedAtOnce : ConnectAnswers where
  poll := .ok
  start := ⟨1, 0, 0, []⟩
  request := .flush 0
  oids := []

/-- The query is flushed at once, and there is a result without rows. -/
def commandAtOnce : RequestStart where
  setNonblocking := 0
  sendQueryParams := 1
  flush := 0
  answers := [.isBusy false, .getResult (some ⟨.commandOk, none⟩), .isBusy false, .getResult none]

/-- A completion with these answers is allowed in every state. -/
theorem establishedAtOnce_allowed (s : OidConnect) (ec : ErrorCode) :
    s.Flushed (fun _ => none) ec establishedAtOnce ∧ ¬ s.Asks .write ec establishedAtOnce := by
  rcases s with ⟨connect, request⟩
  cases request with
  | none =>
      constructor
      · intro nonblocking
        cases nonblocking
      · rintro ⟨-, asked | asked | ⟨-, -, nonblocking, -⟩⟩
        · cases asked
        · cases asked
        · cases nonblocking
  | some r =>
      constructor
      · exact trivial
      · rintro ⟨-, -, busy⟩
        cases busy

theorem commandAtOnce_flushed : commandAtOnce.Flushed fun _ => none := by
  intro _ _ busy
  cases busy

/-- An event other than a delivery is allowed in every state. -/
theorem Guarded.allowed_of_ne {σ ι : Type} {asks sane : σ → Direction → ErrorCode → ι → Prop}
    {event : TimedEvent ι} (other : ∀ direction answers, event ≠ .deliver direction answers)
    (g : Guarded σ) : Guarded.Allowed asks sane g (.limited event) := by
  cases g with
  | unlimited op => exact trivial
  | limited timed =>
      constructor
      · intro direction answers ec delivered
        exact absurd delivered (other direction answers)
      · intro direction answers ec delivered
        exact absurd delivered (other direction answers)

/-- The pool has nothing to reuse; the connection is established and the query
answered, each before its timer. -/
def establishedAndAnswered :
    List (ChainEvent (ChainEvent PoolAnswer ConnectStart (GuardedEvent ConnectAnswers))
      RequestStart (GuardedEvent RequestAnswers)) :=
  [.first (.first ⟨.success, none⟩ ⟨some .establishing, .success⟩) commandAtOnce,
    .first (.rest 0 (.limited (.ready .write .success))) commandAtOnce,
    .first (.rest 0 (.limited (.deliver .write establishedAtOnce))) commandAtOnce,
    .first (.rest 0 (.limited .timer)) commandAtOnce, .rest 0 (.limited .timer)]

theorem establishedAndAnswered_allowed
    (s : Chain (Chain (Option PoolAnswer) (Guarded OidConnect) ErrorCode) (Guarded Request)
      ErrorCode) : ∀ event ∈ establishedAndAnswered,
    requestAllowed (fun _ => none) (pooledConnection (fun _ => none) true [])
      (poolAllowed fun _ => none) s event := by
  have deliver : ∀ g : Guarded OidConnect, connectAllowed (fun _ => none) g
      (.limited (.deliver .write establishedAtOnce)) := by
    intro g
    cases g with
    | unlimited op => exact trivial
    | limited timed =>
        constructor
        · rintro _ _ ec ⟨⟩ - -
          exact (establishedAtOnce_allowed timed.op ec).2
        · rintro _ _ ec ⟨⟩ -
          exact (establishedAtOnce_allowed timed.op ec).1
  intro event member
  simp only [establishedAndAnswered, List.mem_cons, List.not_mem_nil, or_false] at member
  rcases member with rfl | rfl | rfl | rfl | rfl
  · exact ⟨⟨trivial, fun _ _ => trivial⟩, fun _ _ => commandAtOnce_flushed⟩
  · exact ⟨fun g _ => g.allowed_of_ne (by rintro _ _ ⟨⟩), fun _ _ => commandAtOnce_flushed⟩
  · exact ⟨fun g _ => deliver g, fun _ _ => commandAtOnce_flushed⟩
  · exact ⟨fun g _ => g.allowed_of_ne (by rintro _ _ ⟨⟩), fun _ _ => commandAtOnce_flushed⟩
  · exact fun g _ => g.allowed_of_ne (by rintro _ _ ⟨⟩)

end Bozo.Impl
