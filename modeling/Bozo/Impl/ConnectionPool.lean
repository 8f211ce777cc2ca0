import Bozo.Impl.AsyncConnect

/-!
# The connection pool

The pool keeps representations that were put back.  A request for a connection
is given one of them or an empty handle; a handle that is empty or whose native
handle is bad is filled by a connection attempt.  The attempt's connection is
handed out together with its error, and every connection that is handed out is
put back when it is dropped, unless it is wasted.

What becomes of the native handle between two operations is not known: an
operation carries the status that it finds.
-/

namespace Bozo.Impl

open Bozo.Transition

/-- `transaction_status`. -/
inductive TransactionStatus
  | unknown | idle | active | transaction | error
  deriving DecidableEq, Repr

/-- The representations that were put back, the handles of the requests for
which an attempt is made, the connections that are in use, and the invocations
of the handlers. -/
structure Pool where
  recycled : List Rep
  connecting : List (Option Rep)
  inUse : List Rep
  handled : List (ErrorCode × Option Rep)

namespace Pool

def empty : Pool where
  recycled := []
  connecting := []
  inUse := []
  handled := []

/-- The handler of a request is invoked with a connection. -/
def deliver (p : Pool) (ec : ErrorCode) (rep : Rep) : Pool :=
  { p with inUse := p.inUse ++ [rep], handled := p.handled ++ [(ec, some rep)] }

/-- `pooled_connection_wrapper::operator()` with a handle that is not empty. -/
def reuse (p : Pool) (ec : ErrorCode) (rep : Rep) : Pool :=
  if connectionStatusBad rep.native then
    { p with connecting := p.connecting ++ [some rep] }
  else
    p.deliver ec rep

/-- `~pooled_connection`. -/
def drop (p : Pool) (rep : Rep) (status : TransactionStatus) : Pool :=
  if !connectionStatusOk rep.native || status ≠ .idle then
    p
  else
    { p with recycled := p.recycled ++ [rep] }

end Pool

/-- An operation of the pool.  The positions say which handle or connection it
is about. -/
inductive PoolEvent
  -- The pool answers a request with a handle; `none` is an empty one.
  | got (ec : ErrorCode) (handle : Option Nat) (status : ConnStatus)
  | connected (position : Nat) (attempt : Attempt)
  -- The source of connections provides a null pointer.
  | refused (position : Nat) (ec : ErrorCode)
  | dropped (position : Nat) (native : Option ConnStatus) (context : String)
      (status : TransactionStatus)
  -- The pool gives up a representation that was not used for long.
  | expired (position : Nat)

/-- What an operation does to the pool; `none` means that there is nothing at
its position or that the attempt is not over. -/
def Pool.step (process : PgResult → Option String) (types : List Registered) (p : Pool) :
    PoolEvent → Option Pool
  | .got ec handle status =>
      if ec.failed then
        some { p with handled := p.handled ++ [(ec, none)] }
      else
        match handle with
        | none => some { p with connecting := p.connecting ++ [none] }
        | some position =>
            p.recycled[position]?.map fun rep =>
              { p with recycled := p.recycled.eraseIdx position }.reuse ec (rep.withStatus status)
  | .connected position attempt =>
      p.connecting[position]?.bind fun _ =>
        (asyncConnect process types attempt).map fun (ec, rep) =>
          { p with connecting := p.connecting.eraseIdx position }.deliver ec rep
  | .refused position ec =>
      p.connecting[position]?.map fun handle =>
        { p with
          recycled := p.recycled ++ handle.toList
          connecting := p.connecting.eraseIdx position
          handled := p.handled ++ [(ec, none)] }
  | .dropped position native context status =>
      p.inUse[position]?.map fun rep =>
        { p with inUse := p.inUse.eraseIdx position }.drop
          { rep with native := native, errorContext := context } status
  | .expired position =>
      p.recycled[position]?.map fun _ => { p with recycled := p.recycled.eraseIdx position }

variable {process : PgResult → Option String} {types : List Registered}

/-! ## What the handlers are given -/

/-- The connection is not bad and has an oid for every registered type. -/
structure Usable (types : List Registered) (rep : Rep) : Prop where
  native : connectionStatusBad rep.native = false
  complete : Complete types rep.oidMap

/-- No operation hides that a connection is not usable.  A connection that is
dropped without an oid for every type is bad or within a transaction; the handle
is not bad at the end of an attempt in which nothing goes wrong; a source that
provides a null pointer reports an error. -/
def Sound (process : PgResult → Option String) (types : List Registered) (p : Pool) :
    PoolEvent → Prop
  | .got _ _ _ | .expired _ => True
  | .connected _ attempt => attempt.Succeeds process types → attempt.status ≠ .bad
  | .refused _ ec => ec.failed = true
  | .dropped position native _ status =>
      ∀ rep, p.inUse[position]? = some rep → ¬ Complete types rep.oidMap →
        native ≠ some .ok ∨ status ≠ .idle

namespace Pool

/-- Every representation that may be delivered again has an oid for every
type, and every delivery without an error was right. -/
structure Wellformed (types : List Registered) (p : Pool) : Prop where
  recycled : ∀ rep ∈ p.recycled, Complete types rep.oidMap
  connecting : ∀ rep, some rep ∈ p.connecting → Complete types rep.oidMap
  handled : ∀ ec conn, (ec, conn) ∈ p.handled → ec.failed = false →
    ∃ rep, conn = some rep ∧ Usable types rep

theorem Wellformed.empty : Pool.empty.Wellformed types :=
  ⟨nofun, nofun, nofun⟩

/-- A handler is invoked with an error or with a usable connection. -/
theorem Wellformed.handle {p : Pool} {ec : ErrorCode} {conn : Option Rep}
    (wellformed : p.Wellformed types)
    (right : ec.failed = false → ∃ rep, conn = some rep ∧ Usable types rep) :
    { p with handled := p.handled ++ [(ec, conn)] }.Wellformed types := by
  refine ⟨wellformed.recycled, wellformed.connecting, ?_⟩
  intro code other member succeeds
  rcases List.mem_append.mp member with before | here
  · exact wellformed.handled code other before succeeds
  · cases List.mem_singleton.mp here
    exact right succeeds

theorem Wellformed.deliver {p : Pool} {ec : ErrorCode} {rep : Rep} (wellformed : p.Wellformed types)
    (usable : ec.failed = false → Usable types rep) : (p.deliver ec rep).Wellformed types := by
  have given : { p with handled := p.handled ++ [(ec, some rep)] }.Wellformed types :=
    wellformed.handle fun succeeds => ⟨rep, rfl, usable succeeds⟩
  exact ⟨given.recycled, given.connecting, given.handled⟩

theorem Wellformed.fail {p : Pool} {ec : ErrorCode} (wellformed : p.Wellformed types)
    (failed : ec.failed = true) :
    { p with handled := p.handled ++ [(ec, none)] }.Wellformed types := by
  apply wellformed.handle
  intro succeeds
  rw [failed] at succeeds
  cases succeeds

theorem Wellformed.addConnecting {p : Pool} {handle : Option Rep} (wellformed : p.Wellformed types)
    (complete : ∀ rep, handle = some rep → Complete types rep.oidMap) :
    { p with connecting := p.connecting ++ [handle] }.Wellformed types := by
  refine ⟨wellformed.recycled, ?_, wellformed.handled⟩
  intro rep member
  rcases List.mem_append.mp member with before | here
  · exact wellformed.connecting rep before
  · exact complete rep (List.mem_singleton.mp here).symm

theorem Wellformed.addRecycled {p : Pool} {reps : List Rep} (wellformed : p.Wellformed types)
    (complete : ∀ rep ∈ reps, Complete types rep.oidMap) :
    { p with recycled := p.recycled ++ reps }.Wellformed types := by
  refine ⟨?_, wellformed.connecting, wellformed.handled⟩
  intro rep member
  rcases List.mem_append.mp member with before | here
  · exact wellformed.recycled rep before
  · exact complete rep here

theorem Wellformed.removeRecycled {p : Pool} (wellformed : p.Wellformed types) (position : Nat) :
    { p with recycled := p.recycled.eraseIdx position }.Wellformed types :=
  ⟨fun rep member => wellformed.recycled rep (List.mem_of_mem_eraseIdx member),
    wellformed.connecting, wellformed.handled⟩

theorem Wellformed.removeConnecting {p : Pool} (wellformed : p.Wellformed types) (position : Nat) :
    { p with connecting := p.connecting.eraseIdx position }.Wellformed types :=
  ⟨wellformed.recycled,
    fun rep member => wellformed.connecting rep (List.mem_of_mem_eraseIdx member),
    wellformed.handled⟩

theorem Wellformed.reuse {p : Pool} {ec : ErrorCode} {rep : Rep} (wellformed : p.Wellformed types)
    (complete : Complete types rep.oidMap) : (p.reuse ec rep).Wellformed types := by
  unfold Pool.reuse
  split
  · apply wellformed.addConnecting
    rintro _ ⟨⟩
    exact complete
  · rename_i usable
    exact wellformed.deliver fun _ => ⟨Bool.eq_false_iff.mpr usable, complete⟩

theorem Wellformed.drop {p : Pool} {rep : Rep} {status : TransactionStatus}
    (wellformed : p.Wellformed types)
    (complete : rep.native = some .ok → status = .idle → Complete types rep.oidMap) :
    (p.drop rep status).Wellformed types := by
  unfold Pool.drop
  split
  · exact wellformed
  · rename_i healthy
    simp only [connectionStatusOk, Bool.or_eq_true, Bool.not_eq_true', decide_eq_true_eq,
      not_or, Bool.not_eq_false, Option.any_eq_true, not_not] at healthy
    rcases healthy with ⟨⟨native, handle, rfl⟩, idle⟩
    apply wellformed.addRecycled
    intro other member
    cases List.mem_singleton.mp member
    exact complete handle idle

/-- One operation. -/
theorem Wellformed.step {p next : Pool} {event : PoolEvent} (wellformed : p.Wellformed types)
    (sound : Sound process types p event) (taken : p.step process types event = some next) :
    next.Wellformed types := by
  cases event with
  | got ec handle status =>
      simp only [Pool.step] at taken
      split at taken
      · cases taken
        exact wellformed.fail ‹_›
      · cases handle with
        | none =>
            cases taken
            exact wellformed.addConnecting nofun
        | some position =>
            rcases Option.map_eq_some_iff.mp taken with ⟨rep, held, rfl⟩
            have complete := wellformed.recycled rep (List.mem_of_getElem? held)
            exact (wellformed.removeRecycled position).reuse complete
  | connected position attempt =>
      rcases Option.bind_eq_some_iff.mp taken with ⟨handle, held, rest⟩
      rcases Option.map_eq_some_iff.mp rest with ⟨⟨ec, rep⟩, outcome, rfl⟩
      apply (wellformed.removeConnecting position).deliver
      intro succeeds
      rcases asyncConnect_succeeds outcome succeeds with ⟨clean, native, complete⟩
      refine ⟨?_, complete⟩
      simpa [native, connectionStatusBad] using sound clean
  | refused position ec =>
      rcases Option.map_eq_some_iff.mp taken with ⟨handle, held, rfl⟩
      have complete : ∀ rep ∈ handle.toList, Complete types rep.oidMap := by
        intro rep member
        rw [Option.mem_toList.mp member] at held
        exact wellformed.connecting rep (List.mem_of_getElem? held)
      exact ((wellformed.removeConnecting position).addRecycled complete).fail sound
  | dropped position native context status =>
      rcases Option.map_eq_some_iff.mp taken with ⟨rep, held, rfl⟩
      have rest : { p with inUse := p.inUse.eraseIdx position }.Wellformed types :=
        ⟨wellformed.recycled, wellformed.connecting, wellformed.handled⟩
      apply rest.drop
      rintro rfl rfl
      by_contra incomplete
      rcases sound rep held incomplete with bad | busy
      · exact bad rfl
      · exact busy rfl
  | expired position =>
      rcases Option.map_eq_some_iff.mp taken with ⟨rep, held, rfl⟩
      exact wellformed.removeRecycled position

end Pool

/-- One registered type. -/
def pointType : List Registered :=
  [⟨"boost::hana::type_impl<point>::_", "point_t"⟩]

/-- An attempt in which the request for oids is answered with one oid. -/
def answeredWith (oid : Io.Oid) : Attempt where
  start := some .establishing
  socket := 7
  polls := [(.success, .reading), (.success, .ok)]
  request := [.start 0 1 0 [.isBusy false, .getResult (some ⟨.tuplesOk, none⟩), .isBusy false,
    .getResult none]]
  oids := [oid]
  status := .ok

/-- A connection whose type has no oid in the database is reported with an
error and dropped, and the next request is given it. -/
def reusedWithoutOid : List PoolEvent :=
  [.got .success none .ok, .connected 0 (answeredWith 0), .dropped 0 (some .ok) "" .idle,
    .got .success (some 0) .ok]

/-- Some handler was invoked without an error and without a usable connection. -/
def Pool.Misled (types : List Registered) (p : Pool) : Prop :=
  ∃ ec conn, (ec, conn) ∈ p.handled ∧ ec.failed = false ∧
    ¬ ∃ rep, conn = some rep ∧ Usable types rep

theorem Pool.misled_deliver {p : Pool} {ec : ErrorCode} {rep : Rep} (succeeds : ec.failed = false)
    (unusable : ¬ Usable types rep) : (p.deliver ec rep).Misled types := by
  refine ⟨ec, some rep, List.mem_append_right _ (List.mem_singleton_self _), succeeds, ?_⟩
  rintro ⟨other, same, usable⟩
  cases same
  exact unusable usable

/-- What was put back last may be given to the next request. -/
theorem Pool.step_got_last {p : Pool} {reps : List Rep} {rep : Rep}
    (last : p.recycled = reps ++ [rep]) (healthy : rep.native = some .ok) :
    p.step process types (.got .success (some reps.length) .ok) =
      some ({ p with recycled := p.recycled.eraseIdx reps.length }.deliver .success rep) := by
  have given : p.recycled[reps.length]? = some rep := by
    simp [last]
  have same : rep.withStatus .ok = rep := by
    rw [Rep.withStatus, healthy]
    exact congrArg (Rep.mk · rep.oidMap rep.errorContext) healthy.symm
  have usable : connectionStatusBad rep.native = false := by
    rw [healthy]
    rfl
  simp only [Pool.step, given, Option.map_some, same, Pool.reuse, usable]
  rfl

/-- An operation that breaks the condition misleads a handler, or the next
request that is given what it put back. -/
theorem misled_of_unsound {p next : Pool} {event : PoolEvent}
    (unsound : ¬ Sound process types p event) (taken : p.step process types event = some next) :
    ∃ later, Reachable (Pool.step process types) Any next later ∧ later.Misled types := by
  cases event with
  | got ec handle status => exact (unsound trivial).elim
  | expired position => exact (unsound trivial).elim
  | connected position attempt =>
      simp only [Sound, not_forall, not_not] at unsound
      rcases unsound with ⟨clean, bad⟩
      rcases asyncConnect_of_succeeds clean with ⟨ec, conn, outcome, succeeds, native⟩
      rcases Option.bind_eq_some_iff.mp taken with ⟨handle, held, rest⟩
      rw [outcome] at rest
      cases rest
      refine ⟨_, .refl, Pool.misled_deliver succeeds fun usable => ?_⟩
      have notBad := usable.native
      rw [native, bad] at notBad
      cases notBad
  | refused position ec =>
      have succeeds : ec.failed = false := Bool.eq_false_iff.mpr unsound
      rcases Option.map_eq_some_iff.mp taken with ⟨handle, held, rfl⟩
      refine ⟨_, .refl, ec, none, List.mem_append_right _ (List.mem_singleton_self _), succeeds, ?_⟩
      rintro ⟨rep, none, _⟩
      cases none
  | dropped position native context status =>
      simp only [Sound, not_forall, not_or, not_not] at unsound
      rcases unsound with ⟨rep, held, incomplete, rfl, rfl⟩
      rcases Option.map_eq_some_iff.mp taken with ⟨other, held', rfl⟩
      rw [held] at held'
      cases held'
      have again : ({ p with inUse := p.inUse.eraseIdx position }.drop
          { rep with native := some .ok, errorContext := context } .idle).step process types
            (.got .success (some p.recycled.length) .ok) = some _ :=
        Pool.step_got_last rfl rfl
      exact ⟨_, .tail .refl trivial again,
        Pool.misled_deliver rfl fun usable => incomplete usable.complete⟩

end Bozo.Impl
