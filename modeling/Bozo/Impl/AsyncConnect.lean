import Bozo.Impl.AsyncRequest
import Bozo.Io.Types

/-!
# Establishing a connection

A connection attempt starts the native handle, polls it until it is established
and, if custom types are registered, requests their oids.  The oids are set one
after another, so that an attempt that fails at some row leaves a part of them
behind.
-/

namespace Bozo.Impl

open Bozo.Io
open Bozo.Transition

/-- `ConnStatusType`; the statuses of a connection that is being established
are not told apart. -/
inductive ConnStatus
  | ok
  | bad
  | establishing
  deriving DecidableEq, Repr

/-- `connection_status_bad`; a null handle is `none`. -/
def connectionStatusBad (native : Option ConnStatus) : Bool :=
  native.all (· = .bad)

/-- `connection_status_ok`. -/
def connectionStatusOk (native : Option ConnStatus) : Bool :=
  native.any (· = .ok)

/-! ## Oid maps -/

/-- A registered custom type: what `typeid` calls it, and its name in the
database. -/
structure Registered where
  typeId : String
  name : String
  deriving DecidableEq, Repr

/-- An entry of an `oid_map_t`. -/
structure OidEntry where
  type : Registered
  oid : Oid
  deriving DecidableEq, Repr

/-- `register_types`. -/
def registerTypes (types : List Registered) : List OidEntry :=
  types.map fun type => ⟨type, 0⟩

/-- The entries up to the first null oid are set.  The second component is the
text of the exception. -/
def setOids : List OidEntry → List Oid → List OidEntry × Option String
  | entry :: map, oid :: res =>
      if oid = 0 then
        (entry :: map, some ("null oid for type " ++ entry.type.typeId ++
          " which is mapped as " ++ entry.type.name))
      else
        let rest := setOids map res
        ({ entry with oid := oid } :: rest.1, rest.2)
  | map, _ => (map, none)

/-- `set_oid_map`. -/
def setOidMap (map : List OidEntry) (res : List Oid) : List OidEntry × Option String :=
  if map.length ≠ res.length then
    (map, some ("result size " ++ toString res.length ++
      " does not match to oid map size " ++ toString map.length))
  else
    setOids map res

/-- The map has a non-null oid for every registered type. -/
structure Complete (types : List Registered) (map : List OidEntry) : Prop where
  types_eq : map.map OidEntry.type = types
  oid_ne : ∀ entry ∈ map, entry.oid ≠ 0

instance (types : List Registered) (map : List OidEntry) : Decidable (Complete types map) :=
  decidable_of_iff (map.map OidEntry.type = types ∧ ∀ entry ∈ map, entry.oid ≠ 0)
    ⟨fun ⟨types_eq, oid_ne⟩ => ⟨types_eq, oid_ne⟩,
      fun complete => ⟨complete.types_eq, complete.oid_ne⟩⟩

theorem setOids_types (map : List OidEntry) (res : List Oid) :
    (setOids map res).1.map OidEntry.type = map.map OidEntry.type := by
  fun_induction setOids map res with
  | case1 => rfl
  | case2 entry map oid res oid_ne rest ih => simp [rest, ih]
  | case3 => rfl

/-- Setting the oids succeeds exactly when none of them is null. -/
theorem setOids_succeeds_iff {map : List OidEntry} {res : List Oid}
    (length_eq : map.length = res.length) :
    (setOids map res).2 = none ↔ ∀ oid ∈ res, oid ≠ 0 := by
  fun_induction setOids map res with
  | case1 entry map res => simp
  | case2 entry map oid res oid_ne rest ih =>
      have length_eq' : map.length = res.length := by simpa using length_eq
      rw [List.forall_mem_cons]
      exact (ih length_eq').trans (and_iff_right oid_ne).symm
  | case3 map res no =>
      cases map with
      | nil =>
          cases res with
          | nil => simp
          | cons oid res => cases length_eq
      | cons entry map =>
          cases res with
          | nil => cases length_eq
          | cons oid res => exact (no _ _ _ _ rfl rfl).elim

theorem setOids_oid_ne {map : List OidEntry} {res : List Oid}
    (length_eq : map.length = res.length) (succeeds : (setOids map res).2 = none) :
    ∀ entry ∈ (setOids map res).1, entry.oid ≠ 0 := by
  fun_induction setOids map res with
  | case1 => cases succeeds
  | case2 entry map oid res oid_ne rest ih =>
      intro other member
      rcases List.mem_cons.mp member with rfl | member
      · exact oid_ne
      · exact ih (by simpa using length_eq) succeeds other member
  | case3 map res no =>
      cases map with
      | nil => nofun
      | cons entry map =>
          cases res with
          | nil => cases length_eq
          | cons oid res => exact (no _ _ _ _ rfl rfl).elim

/-- Oids that are all set are set in order. -/
theorem setOids_eq {map : List OidEntry} {res : List Oid}
    (length_eq : map.length = res.length) (succeeds : (setOids map res).2 = none) :
    (setOids map res).1 = List.zipWith OidEntry.mk (map.map OidEntry.type) res := by
  fun_induction setOids map res with
  | case1 => cases succeeds
  | case2 entry map oid res oid_ne rest ih =>
      rw [List.map_cons, List.zipWith_cons_cons]
      exact congrArg _ (ih (by simpa using length_eq) succeeds)
  | case3 map res no =>
      cases map with
      | nil => rfl
      | cons entry map =>
          cases res with
          | nil => cases length_eq
          | cons oid res => exact (no _ _ _ _ rfl rfl).elim

/-- `set_oid_map` succeeds exactly for one non-null oid per entry. -/
theorem setOidMap_succeeds_iff (map : List OidEntry) (res : List Oid) :
    (setOidMap map res).2 = none ↔ map.length = res.length ∧ ∀ oid ∈ res, oid ≠ 0 := by
  unfold setOidMap
  split
  · rename_i differs
    simp [differs]
  · rename_i length_eq
    rw [not_not] at length_eq
    simp [length_eq, setOids_succeeds_iff length_eq]

theorem setOidMap_types (map : List OidEntry) (res : List Oid) :
    (setOidMap map res).1.map OidEntry.type = map.map OidEntry.type := by
  unfold setOidMap
  split
  · rfl
  · exact setOids_types map res

/-- The oids are set in the order of the answer. -/
theorem setOidMap_eq {map : List OidEntry} {res : List Oid}
    (succeeds : (setOidMap map res).2 = none) :
    (setOidMap map res).1 = List.zipWith OidEntry.mk (map.map OidEntry.type) res := by
  have length_eq := ((setOidMap_succeeds_iff map res).mp succeeds).1
  rw [setOidMap, if_neg (not_not.mpr length_eq)] at succeeds ⊢
  exact setOids_eq length_eq succeeds

theorem setOidMap_complete {types : List Registered} {map : List OidEntry} {res : List Oid}
    (types_eq : map.map OidEntry.type = types) (succeeds : (setOidMap map res).2 = none) :
    Complete types (setOidMap map res).1 := by
  have length_eq := ((setOidMap_succeeds_iff map res).mp succeeds).1
  refine ⟨(setOidMap_types map res).trans types_eq, ?_⟩
  rw [setOidMap, if_neg (not_not.mpr length_eq)] at succeeds ⊢
  exact setOids_oid_ne length_eq succeeds

/-! ## Connection attempts -/

/-- What a `connection` and a `connection_rep` hold. -/
structure Rep where
  native : Option ConnStatus
  oidMap : List OidEntry
  errorContext : String
  deriving DecidableEq, Repr

/-- The native handle as it is at another time. -/
def Rep.withStatus (rep : Rep) (status : ConnStatus) : Rep :=
  { rep with native := rep.native.map fun _ => status }

/-- `PostgresPollingStatusType`. -/
inductive Polling
  | ok | writing | reading | failed | active
  deriving DecidableEq, Repr

/-- What happens in a connection attempt: the answers of `PQconnectStart`
(with the status of the handle) and of `PQsocket`, the completions of the waits
with the answer of `PQconnectPoll` to each, the events of the request for oids
and the oids that its result is read into, and the status of the handle when
the handler is invoked. -/
structure Attempt where
  start : Option ConnStatus
  socket : Int
  polls : List (ErrorCode × Polling)
  request : List Event
  oids : List Oid
  status : ConnStatus

/-- `async_connect_op::operator()`; `none` means that a wait is pending. -/
def asyncConnectOp (conn : Rep) : List (ErrorCode × Polling) → Option (ErrorCode × Rep)
  | [] => none
  | (ec, poll) :: polls =>
      if ec.failed then
        some (ec, if conn.errorContext.isEmpty then
          { conn with errorContext := "error while connection polling" } else conn)
      else
        match poll with
        | .ok => some (.success, conn)
        | .writing | .reading => asyncConnectOp conn polls
        | .failed | .active => some (Error.pqConnectPollFailed.code, conn)

/-- `async_connect_op::perform`.  The handle becomes the connection's when it
is assigned. -/
def performConnect (conn : Rep) (attempt : Attempt) : Option (ErrorCode × Rep) :=
  match attempt.start with
  | none => some (Error.pqConnectionStartFailed.code, conn)
  | some status =>
      if connectionStatusBad (some status) then
        some (Error.pqConnectionStatusBad.code, conn)
      else if attempt.socket = -1 then
        some (Error.pqSocketFailed.code, conn)
      else
        asyncConnectOp { conn with native := some status } attempt.polls

section Attempts

-- The reading of the oids from a result.
variable (process : PgResult → Option String)

/-- `request_oid_map_op`: the request and the call of its handler. -/
def requestOidMap (conn : Rep) (attempt : Attempt) : Option (ErrorCode × Rep) :=
  (run (Request.step process) (Request.initial conn.errorContext) attempt.request).bind
    fun r => r.calls.head?.map fun ec =>
      if ec.failed then
        (ec, { conn with errorContext := r.errorContext })
      else
        match setOidMap conn.oidMap attempt.oids with
        | (map, none) => (ec, { conn with oidMap := map, errorContext := r.errorContext })
        | (map, some what) =>
            (Error.oidRequestFailed.code, { conn with oidMap := map, errorContext := what })

/-- `async_connect` on a new connection of a `connection_info`. -/
def asyncConnect (types : List Registered) (attempt : Attempt) : Option (ErrorCode × Rep) :=
  ((performConnect ⟨none, registerTypes types, ""⟩ attempt).bind fun (ec, conn) =>
    if types = [] then
      some (ec, conn)
    else if ec.failed then
      some (ec, conn)
    else
      requestOidMap process conn attempt).map fun (ec, conn) =>
        (ec, conn.withStatus attempt.status)

/-- The waits succeed until the connection is established. -/
def Polled : List (ErrorCode × Polling) → Prop
  | [] => False
  | (ec, poll) :: polls =>
      ec.failed = false ∧
        match poll with
        | .ok => True
        | .writing | .reading => Polled polls
        | .failed | .active => False

/-- Nothing goes wrong in an attempt, up to what the handle has become in the
end. -/
structure Attempt.Succeeds (types : List Registered) (attempt : Attempt) : Prop where
  start : ∃ status, attempt.start = some status ∧ status ≠ .bad
  socket : attempt.socket ≠ -1
  polled : Polled attempt.polls
  answered : types ≠ [] → ∃ r ec,
    run (Request.step process) (Request.initial "") attempt.request = some r ∧
      r.calls.head? = some ec ∧ ec.failed = false
  oids : types ≠ [] → attempt.oids.length = types.length ∧ ∀ oid ∈ attempt.oids, oid ≠ 0

variable {process}

theorem asyncConnectOp_succeeds {conn : Rep} {polls : List (ErrorCode × Polling)}
    {ec : ErrorCode} {established : Rep}
    (outcome : asyncConnectOp conn polls = some (ec, established))
    (succeeds : ec.failed = false) : Polled polls ∧ established = conn := by
  induction polls with
  | nil => cases outcome
  | cons first polls ih =>
      obtain ⟨waited, poll⟩ := first
      unfold asyncConnectOp at outcome
      split at outcome
      · rename_i failed
        cases outcome
        rw [failed] at succeeds
        cases succeeds
      · rename_i completed
        have completed := Bool.eq_false_iff.mpr completed
        cases poll with
        | ok =>
            cases outcome
            exact ⟨⟨completed, trivial⟩, rfl⟩
        | writing | reading =>
            obtain ⟨polled, same⟩ := ih outcome
            exact ⟨⟨completed, polled⟩, same⟩
        | failed | active =>
            cases outcome
            cases succeeds

theorem performConnect_succeeds {conn established : Rep} {attempt : Attempt} {ec : ErrorCode}
    (outcome : performConnect conn attempt = some (ec, established))
    (succeeds : ec.failed = false) :
    ∃ status, attempt.start = some status ∧ status ≠ .bad ∧ attempt.socket ≠ -1 ∧
      Polled attempt.polls ∧ established = { conn with native := some status } := by
  unfold performConnect at outcome
  split at outcome
  · cases outcome
    cases succeeds
  · rename_i status started
    split at outcome
    · cases outcome
      cases succeeds
    · rename_i usable
      split at outcome
      · cases outcome
        cases succeeds
      · rename_i socket
        obtain ⟨polled, same⟩ := asyncConnectOp_succeeds outcome succeeds
        refine ⟨status, started, ?_, socket, polled, same⟩
        rintro rfl
        exact usable rfl

theorem requestOidMap_succeeds {types : List Registered} {conn established : Rep}
    {attempt : Attempt} {ec : ErrorCode}
    (types_eq : conn.oidMap.map OidEntry.type = types)
    (outcome : requestOidMap process conn attempt = some (ec, established))
    (succeeds : ec.failed = false) :
    (∃ r code, run (Request.step process) (Request.initial conn.errorContext) attempt.request =
        some r ∧ r.calls.head? = some code ∧ code.failed = false) ∧
      attempt.oids.length = types.length ∧ (∀ oid ∈ attempt.oids, oid ≠ 0) ∧
      established.native = conn.native ∧ Complete types established.oidMap := by
  rcases Option.bind_eq_some_iff.mp outcome with ⟨r, ran, called⟩
  rcases Option.map_eq_some_iff.mp called with ⟨code, first, handled⟩
  split at handled
  · rename_i failed
    cases handled
    rw [failed] at succeeds
    cases succeeds
  · rename_i answered
    have answered := Bool.eq_false_iff.mpr answered
    split at handled
    · rename_i map set
      cases handled
      have done : (setOidMap conn.oidMap attempt.oids).2 = none := by rw [set]
      obtain ⟨length_eq, oid_ne⟩ := (setOidMap_succeeds_iff _ _).mp done
      have complete := setOidMap_complete types_eq done
      rw [set] at complete
      refine ⟨⟨r, ec, ran, first, answered⟩, ?_, oid_ne, rfl, complete⟩
      rw [← length_eq, ← types_eq, List.length_map]
    · cases handled
      cases succeeds

/-- An attempt that is reported as successful has set every oid. -/
theorem asyncConnect_succeeds {types : List Registered} {attempt : Attempt} {ec : ErrorCode}
    {conn : Rep} (outcome : asyncConnect process types attempt = some (ec, conn))
    (succeeds : ec.failed = false) :
    attempt.Succeeds process types ∧ conn.native = some attempt.status ∧
      Complete types conn.oidMap := by
  rcases Option.map_eq_some_iff.mp outcome with ⟨⟨code, final⟩, connected, same⟩
  cases same
  rcases Option.bind_eq_some_iff.mp connected with ⟨⟨polledCode, polledConn⟩, performed, rest⟩
  have types_eq : (registerTypes types).map OidEntry.type = types := by
    simp [registerTypes, Function.comp_def]
  simp only at rest
  split at rest
  · rename_i noTypes
    cases rest
    obtain ⟨status, start, usable, socket, polled, rfl⟩ :=
      performConnect_succeeds performed succeeds
    refine ⟨⟨⟨status, start, usable⟩, socket, polled, fun types => absurd noTypes types,
      fun types => absurd noTypes types⟩, rfl, types_eq, ?_⟩
    subst noTypes
    nofun
  · split at rest
    · rename_i failed
      cases rest
      rw [failed] at succeeds
      cases succeeds
    · rename_i established
      obtain ⟨status, start, usable, socket, polled, rfl⟩ :=
        performConnect_succeeds performed (Bool.eq_false_iff.mpr established)
      obtain ⟨answered, length_eq, oid_ne, native, complete⟩ :=
        requestOidMap_succeeds types_eq rest succeeds
      refine ⟨⟨⟨status, start, usable⟩, socket, polled, fun _ => answered,
        fun _ => ⟨length_eq, oid_ne⟩⟩, ?_, complete⟩
      simp [Rep.withStatus, native]

/-! An attempt in which nothing goes wrong is reported as successful. -/

theorem asyncConnectOp_of_polled {polls : List (ErrorCode × Polling)} (conn : Rep)
    (polled : Polled polls) : asyncConnectOp conn polls = some (.success, conn) := by
  induction polls with
  | nil => exact polled.elim
  | cons first polls ih =>
      obtain ⟨ec, poll⟩ := first
      obtain ⟨completed, rest⟩ := polled
      cases poll with
      | ok => simp [asyncConnectOp, completed]
      | writing | reading => simp [asyncConnectOp, completed, ih rest]
      | failed | active => exact rest.elim

theorem asyncConnect_of_succeeds {types : List Registered} {attempt : Attempt}
    (clean : attempt.Succeeds process types) :
    ∃ ec conn, asyncConnect process types attempt = some (ec, conn) ∧ ec.failed = false ∧
      conn.native = some attempt.status := by
  obtain ⟨status, start, usable⟩ := clean.start
  have performed : performConnect ⟨none, registerTypes types, ""⟩ attempt =
      some (.success, ⟨some status, registerTypes types, ""⟩) := by
    simp [performConnect, start, connectionStatusBad, usable, clean.socket,
      asyncConnectOp_of_polled _ clean.polled]
  by_cases noTypes : types = []
  · refine ⟨.success, ⟨some attempt.status, registerTypes types, ""⟩, ?_, rfl, rfl⟩
    simp only [asyncConnect, performed, Option.bind_some, if_pos noTypes]
    rfl
  · obtain ⟨r, ec, ran, called, answered⟩ := clean.answered noTypes
    obtain ⟨length_eq, oid_ne⟩ := clean.oids noTypes
    have done : (setOidMap (registerTypes types) attempt.oids).2 = none := by
      rw [setOidMap_succeeds_iff]
      exact ⟨by simp [registerTypes, length_eq], oid_ne⟩
    have requested : requestOidMap process ⟨some status, registerTypes types, ""⟩ attempt =
        some (ec, ⟨some status, (setOidMap (registerTypes types) attempt.oids).1,
          r.errorContext⟩) := by
      rw [requestOidMap, ran, Option.bind_some, called, Option.map_some,
        if_neg (by simp [answered])]
      cases set : setOidMap (registerTypes types) attempt.oids with
      | mk map what =>
          rw [set] at done
          cases done
          rfl
    refine ⟨ec, ⟨some attempt.status, (setOidMap (registerTypes types) attempt.oids).1,
      r.errorContext⟩, ?_, answered, rfl⟩
    have succeeded : ¬ ErrorCode.success.failed = true := Bool.false_ne_true
    simp only [asyncConnect, performed, Option.bind_some, if_neg noTypes, if_neg succeeded,
      requested]
    rfl

end Attempts

end Bozo.Impl
