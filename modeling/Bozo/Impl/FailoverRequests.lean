import Bozo.Failover.Machines
import Bozo.Impl.ProvidedRequests

/-!
# Requests under a strategy

A request under a failover strategy is a request over a provider for each of its
attempts, with the provider and the time constraint of the try.  Whatever the
queues, the connection attempts, the requests and the timers do, what is observed
is a run of the strategy.
-/

namespace Bozo.Impl

open Bozo.Failover
open Bozo.Transition

variable {ρ : Type} (process : PgResult → Option String) (types : List Registered)

/-- Whether there is a time constraint at all. -/
def isLimited (ctx : Context ρ) : Bool :=
  ctx.timeConstraint != .none

/-- The connection that the handler of a request is called with. -/
def requestConnection {σ : Type} (connection : σ → Option Rep)
    (s : Chain σ (Guarded Request) ErrorCode) : Option Rep :=
  match s.rest with
  | [] => connection s.first
  | g :: _ => (connection s.first).map fun rep => { rep with errorContext := g.op.errorContext }

/-- A request over a pool; every role has a pool of its own. -/
def poolRequest :
    Asynchronous (Context ρ) Rep
      (Chain (Chain (Option PoolAnswer) (Guarded OidConnect) ErrorCode) (Guarded Request) ErrorCode)
      (ChainEvent (ChainEvent PoolAnswer ConnectStart (GuardedEvent ConnectAnswers)) RequestStart
        (GuardedEvent RequestAnswers)) Unit where
  machine ctx :=
    asyncRequest process (isLimited ctx) (pooledConnection process (isLimited ctx) types) pooledRep
  start _ _ := some ⟨⟨none, [], []⟩, [], []⟩
  connection := requestConnection pooledRep

/-- A request over a `connection_info`, which starts to connect at once. -/
def infoRequest :
    Asynchronous (Context ρ) Rep (Chain (Guarded OidConnect) (Guarded Request) ErrorCode)
      (ChainEvent (GuardedEvent ConnectAnswers) RequestStart (GuardedEvent RequestAnswers))
      (ConnectStart × RequestStart) where
  machine ctx :=
    asyncRequest process (isLimited ctx) (Guarded.caller (connectOp process)) Guarded.connection
  start ctx inputs :=
    (startConnect process (isLimited ctx) types inputs.1).bind fun attempt =>
      Chain.begin (Guarded.caller (connectOp process)) (Guarded.caller (requestOp process))
        (fun state ec start => asyncRequestOp process (isLimited ctx) ec state.connection start)
        attempt inputs.2
  connection := requestConnection Guarded.connection

/-- What may happen to a request over a pool. -/
def poolRequestAllowed (ctx : Context ρ) :=
  requestAllowed process (pooledConnection process (isLimited ctx) types) (poolAllowed process)

def infoRequestAllowed (_ctx : Context ρ) :=
  requestAllowed process (Guarded.caller (connectOp process)) (connectAllowed process)

section Requests

variable {process types}

theorem poolRequest_callsOnce (ctx : Context ρ) :
    ((poolRequest process types).machine ctx).CallsOnce (poolRequestAllowed process types ctx)
      (ProvidedSound process (isLimited ctx) (pooledConnection process (isLimited ctx) types)
        pooledRep (poolAllowed process) (PooledSound process (isLimited ctx) types)) :=
  asyncRequest_callsOnce pooledConnection_callsOnce

theorem infoRequest_callsOnce (ctx : Context ρ) :
    ((infoRequest process types).machine ctx).CallsOnce (infoRequestAllowed process ctx)
      (ProvidedSound process (isLimited ctx) (Guarded.caller (connectOp process))
        Guarded.connection (connectAllowed process) (AttemptKept process types)) :=
  asyncRequest_callsOnce connectCaller_callsOnce

theorem poolRequest_starts {ctx : Context ρ} {input : Unit}
    {s : Chain (Chain (Option PoolAnswer) (Guarded OidConnect) ErrorCode) (Guarded Request)
      ErrorCode} (_fit : True) (started : (poolRequest process types).start ctx input = some s) :
    ProvidedSound process (isLimited ctx) (pooledConnection process (isLimited ctx) types)
      pooledRep (poolAllowed process) (PooledSound process (isLimited ctx) types) s := by
  cases started
  exact ⟨⟨trivial, .waiting⟩, .waiting⟩

theorem infoRequest_starts {ctx : Context ρ} {input : ConnectStart × RequestStart}
    {s : Chain (Guarded OidConnect) (Guarded Request) ErrorCode}
    (flushed : input.2.Flushed process)
    (started : (infoRequest process types).start ctx input = some s) :
    ProvidedSound process (isLimited ctx) (Guarded.caller (connectOp process)) Guarded.connection
      (connectAllowed process) (AttemptKept process types) s := by
  rcases Option.bind_eq_some_iff.mp started with ⟨attempt, isStarted, begun⟩
  have kept := kept_of_startConnect isStarted
  exact Chain.Sound.answer (fun _ isFlushed _ started => kept_of_asyncRequestOp isFlushed started)
    kept flushed (connectCaller_callsOnce.once kept) begun

end Requests

/-! ## Runs -/

/-- Two tries after any error. -/
def requestTwice : Layer (Context ServerRole) Rep :=
  retryLayer (fun (_ : Unit) _ => true) ⟨none, none⟩ 2 fun _ => 0

def requestMasterThenReplica : Layer (Context ServerRole) Rep :=
  roleBasedLayer .master [.replica] (fun _ _ => true) none fun _ => 0

/-- Every connection attempt gets to its first poll. -/
def polledAndAnswered (_i : Nat) : ConnectStart × RequestStart :=
  ⟨⟨some .establishing, .success⟩, commandAtOnce⟩

/-- The wait of the connection attempt at a position completes. -/
def pollAt (position : Nat) (ec : ErrorCode) :
    AttemptEvent (ChainEvent (GuardedEvent ConnectAnswers) RequestStart
      (GuardedEvent RequestAnswers)) (ConnectStart × RequestStart) :=
  ⟨position, .first (.completed .write ec establishedAtOnce) commandAtOnce, polledAndAnswered⟩

theorem pollAt_allowed (s : Attempts requestTwice
      (Chain (Guarded OidConnect) (Guarded Request) ErrorCode)) (position : Nat) (ec : ErrorCode) :
    Layer.Allowed (infoRequestAllowed fun _ => none) (fun _ input => input.2.Flushed fun _ => none)
      s (pollAt position ec) := by
  refine ⟨fun tried _ => ⟨?_, fun _ _ => commandAtOnce_flushed⟩, fun _ _ => commandAtOnce_flushed⟩
  cases tried.op.first with
  | unlimited op => exact (establishedAtOnce_allowed op ec).1
  | limited timed => exact trivial

/-- The queue of the pool answers the last attempt with an error. -/
def queueFails : AttemptEvent (AttemptEvent (ChainEvent
      (ChainEvent PoolAnswer ConnectStart (GuardedEvent ConnectAnswers)) RequestStart
        (GuardedEvent RequestAnswers)) Unit) (Nat × (Nat → Unit)) :=
  ⟨0, ⟨0, .first (.first ⟨operationAborted, none⟩ ⟨none, .success⟩) commandAtOnce, fun _ => ()⟩,
    fun i => ⟨i, fun _ => ()⟩⟩

end Bozo.Impl
