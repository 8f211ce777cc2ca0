import Bozo.Impl.AsyncConnect

/-!
# Establishing a connection, step by step

The operation that establishes a connection is resumed by the completion of the
wait it has started, or by the answer to its request for oids.  Whatever the
outcomes are, it has exactly one of these outstanding until it invokes the
handler, which it does once; and it reports success only for a connection that
is established and whose oid map is complete.
-/

namespace Bozo.Impl

open Bozo.Io
open Bozo.Transition

/-- The operation without a time constraint: the connection, the waits and the
requests for oids that are outstanding, and the codes that the handler was
invoked with. -/
structure Connect where
  conn : Rep
  started : Bool
  writeWaits : Nat
  readWaits : Nat
  oidRequests : Nat
  calls : List ErrorCode
  deriving DecidableEq, Repr

/-- The call of the operation, or the completion of what it has started. -/
inductive ConnectEvent
  | perform (start : Option ConnStatus) (assign : ErrorCode)
  | writeComplete (ec : ErrorCode) (poll : Polling)
  | readComplete (ec : ErrorCode) (poll : Polling)
  | oidResponse (ec : ErrorCode) (context : String) (oids : List Oid)

namespace Connect

def initial (conn : Rep) : Connect where
  conn := conn
  started := false
  writeWaits := 0
  readWaits := 0
  oidRequests := 0
  calls := []

/-- `async_connect_op::done`.  If types are registered, the operation's handler
is a `request_oid_map_handler`, which goes on with a request for oids. -/
def done (c : Connect) (ec : ErrorCode) : Connect :=
  if c.conn.oidMap ≠ [] ∧ ec.failed = false then
    { c with oidRequests := c.oidRequests + 1 }
  else
    { c with calls := c.calls ++ [ec] }

/-- `async_connect_op::perform`. -/
def perform (c : Connect) (start : Option ConnStatus) (assign : ErrorCode) : Connect :=
  match start with
  | none => c.done Error.pqConnectionStartFailed.code
  | some status =>
      if connectionStatusBad (some status) then
        c.done Error.pqConnectionStatusBad.code
      else if assign.failed then
        c.done assign
      else
        { c with
          conn := { c.conn with native := some status }
          writeWaits := c.writeWaits + 1 }

/-- `async_connect_op::operator()` with the answer of `PQconnectPoll`. -/
def connectOp (c : Connect) (ec : ErrorCode) (poll : Polling) : Connect :=
  if ec.failed then
    { c with
      conn := if c.conn.errorContext.isEmpty then
        { c.conn with errorContext := "error while connection polling" } else c.conn }.done ec
  else
    match poll with
    | .ok => c.done .success
    | .writing => { c with writeWaits := c.writeWaits + 1 }
    | .reading => { c with readWaits := c.readWaits + 1 }
    | .failed | .active => c.done Error.pqConnectPollFailed.code

/-- `request_oid_map_op::operator()`. -/
def oidMapOp (c : Connect) (ec : ErrorCode) (context : String) (oids : List Oid) : Connect :=
  if ec.failed then
    { c with
      conn := { c.conn with errorContext := context }
      calls := c.calls ++ [ec] }
  else
    match setOidMap c.conn.oidMap oids with
    | (map, none) =>
        { c with
          conn := { c.conn with oidMap := map, errorContext := context }
          calls := c.calls ++ [ec] }
    | (map, some what) =>
        { c with
          conn := { c.conn with oidMap := map, errorContext := what }
          calls := c.calls ++ [Error.oidRequestFailed.code] }

/-- What an event does.  A request for oids is taken to be answered once. -/
def step (c : Connect) : ConnectEvent → Option Connect
  | .perform start assign =>
      if c.started then none else some ({ c with started := true }.perform start assign)
  | .writeComplete ec poll =>
      if c.writeWaits = 0 then
        none
      else
        some ({ c with writeWaits := c.writeWaits - 1 }.connectOp ec poll)
  | .readComplete ec poll =>
      if c.readWaits = 0 then
        none
      else
        some ({ c with readWaits := c.readWaits - 1 }.connectOp ec poll)
  | .oidResponse ec context oids =>
      if c.oidRequests = 0 then
        none
      else
        some ({ c with oidRequests := c.oidRequests - 1 }.oidMapOp ec context oids)

/-! ## What holds after every step -/

/-- Exactly one wait is pending, or a request for oids is, or the handler has
been invoked, once. -/
def OneOutstanding (c : Connect) : Prop :=
  (c.writeWaits + c.readWaits = 1 ∧ c.oidRequests = 0 ∧ c.calls = []) ∨
    (c.writeWaits + c.readWaits = 0 ∧ c.oidRequests = 1 ∧ c.calls = []) ∨
    (c.writeWaits + c.readWaits = 0 ∧ c.oidRequests = 0 ∧ c.calls.length = 1)

/-- What is kept by every step behind the first. -/
structure Sound (types : List Registered) (c : Connect) : Prop where
  started : c.started = true
  types_eq : c.conn.oidMap.map OidEntry.type = types
  outstanding : c.OneOutstanding

/-- The operation is running: nothing is outstanding for the moment. -/
structure Running (types : List Registered) (c : Connect) : Prop where
  started : c.started = true
  types_eq : c.conn.oidMap.map OidEntry.type = types
  writeWaits : c.writeWaits = 0
  readWaits : c.readWaits = 0
  oidRequests : c.oidRequests = 0
  calls : c.calls = []

section Steps

variable {types : List Registered} {c : Connect}

/-- The call of the handler, or the request for oids in its place. -/
theorem Running.done (running : c.Running types) (ec : ErrorCode) : (c.done ec).Sound types := by
  rcases running with ⟨started, types_eq, noWrite, noRead, noRequest, noCall⟩
  unfold Connect.done
  split
  · refine ⟨started, types_eq, .inr (.inl ⟨?_, ?_, noCall⟩)⟩
    · rw [noWrite, noRead]
    · rw [noRequest]
  · refine ⟨started, types_eq, .inr (.inr ⟨?_, noRequest, ?_⟩)⟩
    · rw [noWrite, noRead]
    · rw [noCall]
      rfl

/-- A wait that is started is the only thing outstanding. -/
theorem Running.waits (running : c.Running types) {next : Connect}
    (one : next.writeWaits + next.readWaits = 1) (started : next.started = c.started)
    (oidMap : next.conn.oidMap = c.conn.oidMap) (oidRequests : next.oidRequests = c.oidRequests)
    (calls : next.calls = c.calls) : next.Sound types := by
  constructor
  · rw [started, running.started]
  · rw [oidMap, running.types_eq]
  · exact .inl ⟨one, oidRequests.trans running.oidRequests, calls.trans running.calls⟩

theorem Running.perform (running : c.Running types) (start : Option ConnStatus)
    (assign : ErrorCode) : (c.perform start assign).Sound types := by
  unfold Connect.perform
  split
  · exact running.done _
  · split
    · exact running.done _
    · split
      · exact running.done _
      · apply running.waits
        · rw [running.writeWaits, running.readWaits]
        · rfl
        · rfl
        · rfl
        · rfl

theorem Running.connectOp (running : c.Running types) (ec : ErrorCode) (poll : Polling) :
    (c.connectOp ec poll).Sound types := by
  unfold Connect.connectOp
  split
  · apply Running.done
    rcases running with ⟨started, types_eq, noWrite, noRead, noRequest, noCall⟩
    constructor
    · exact started
    · split
      · exact types_eq
      · exact types_eq
    · exact noWrite
    · exact noRead
    · exact noRequest
    · exact noCall
  · cases poll with
    | ok => exact running.done _
    | writing =>
        apply running.waits
        · show c.writeWaits + 1 + c.readWaits = 1
          rw [running.writeWaits, running.readWaits]
        · rfl
        · rfl
        · rfl
        · rfl
    | reading =>
        apply running.waits
        · show c.writeWaits + (c.readWaits + 1) = 1
          rw [running.writeWaits, running.readWaits]
        · rfl
        · rfl
        · rfl
        · rfl
    | failed | active => exact running.done _

/-- The handler is invoked behind the answer to the request for oids. -/
theorem Running.answered (running : c.Running types) {conn : Rep} (code : ErrorCode)
    (types_eq : conn.oidMap.map OidEntry.type = types) :
    ({ c with conn := conn, calls := c.calls ++ [code] } : Connect).Sound types := by
  refine ⟨running.started, types_eq, .inr (.inr ⟨?_, running.oidRequests, ?_⟩)⟩
  · rw [running.writeWaits, running.readWaits]
  · rw [running.calls]
    rfl

theorem Running.oidMapOp (running : c.Running types) (ec : ErrorCode) (context : String)
    (oids : List Oid) : (c.oidMapOp ec context oids).Sound types := by
  have types_eq := (setOidMap_types c.conn.oidMap oids).trans running.types_eq
  unfold Connect.oidMapOp
  split
  · exact running.answered ec running.types_eq
  · split <;> rename_i set
    · rw [set] at types_eq
      exact running.answered ec types_eq
    · rw [set] at types_eq
      exact running.answered _ types_eq

/-- Behind the completion of its wait the operation is running. -/
theorem Sound.running_of_wait (sound : c.Sound types) (write read : Nat)
    (pending : c.writeWaits + c.readWaits ≠ 0)
    (taken : write + read + 1 = c.writeWaits + c.readWaits) :
    ({ c with writeWaits := write, readWaits := read } : Connect).Running types := by
  rcases sound with ⟨started, types_eq, outstanding⟩
  rcases outstanding with ⟨one, noRequest, noCall⟩ | ⟨none, -⟩ | ⟨none, -⟩
  · exact ⟨started, types_eq, show write = 0 by omega, show read = 0 by omega, noRequest, noCall⟩
  · exact absurd none pending
  · exact absurd none pending

/-- Behind the answer to its request the operation is running. -/
theorem Sound.running_of_request (sound : c.Sound types) (pending : c.oidRequests ≠ 0) :
    ({ c with oidRequests := c.oidRequests - 1 } : Connect).Running types := by
  rcases sound with ⟨started, types_eq, outstanding⟩
  rcases outstanding with ⟨-, noRequest, -⟩ | ⟨noWait, one, noCall⟩ | ⟨-, noRequest, -⟩
  · exact absurd noRequest pending
  · rcases Nat.add_eq_zero_iff.mp noWait with ⟨noWrite, noRead⟩
    exact ⟨started, types_eq, noWrite, noRead, Nat.sub_eq_zero_of_le (Nat.le_of_eq one), noCall⟩
  · exact absurd noRequest pending

/-- Every step from a sound state leads to a sound state. -/
theorem Sound.step (sound : c.Sound types) {event : ConnectEvent} {next : Connect}
    (taken : c.step event = some next) : next.Sound types := by
  cases event with
  | perform start assign =>
      simp only [Connect.step, sound.started, if_true] at taken
      cases taken
  | writeComplete ec poll =>
      simp only [Connect.step] at taken
      split at taken <;> rename_i pending
      · cases taken
      · cases taken
        have running := sound.running_of_wait (c.writeWaits - 1) c.readWaits (by omega)
          (by omega)
        exact running.connectOp ec poll
  | readComplete ec poll =>
      simp only [Connect.step] at taken
      split at taken <;> rename_i pending
      · cases taken
      · cases taken
        have running := sound.running_of_wait c.writeWaits (c.readWaits - 1) (by omega)
          (by omega)
        exact running.connectOp ec poll
  | oidResponse ec context oids =>
      simp only [Connect.step] at taken
      split at taken <;> rename_i pending
      · cases taken
      · cases taken
        exact (sound.running_of_request pending).oidMapOp ec context oids

theorem Sound.perform {conn : Rep} {start : Option ConnStatus} {assign : ErrorCode}
    (performed : (initial conn).step (.perform start assign) = some c) :
    c.Sound (conn.oidMap.map OidEntry.type) := by
  cases performed
  apply Running.perform
  exact ⟨rfl, rfl, rfl, rfl, rfl, rfl⟩

end Steps

/-! ## What a success stands for -/

/-- A wait has completed without an error, and `PQconnectPoll` has returned
`PGRES_POLLING_OK`. -/
def PollsOk : ConnectEvent → Prop
  | .writeComplete ec poll | .readComplete ec poll => ec.failed = false ∧ poll = .ok
  | .perform _ _ | .oidResponse _ _ _ => False

/-- A poll of the run has found the connection established, and, if types are
registered, an answer of the run had one non-null oid for each of them, and the
oids are set in this order. -/
structure EstablishedBy (types : List Registered) (past : List ConnectEvent) (conn : Rep) :
    Prop where
  polled : ∃ event ∈ past, PollsOk event
  answered : types ≠ [] → ∃ code context oids, ConnectEvent.oidResponse code context oids ∈ past ∧
    code.failed = false ∧ oids.length = types.length ∧ (∀ oid ∈ oids, oid ≠ 0) ∧
      conn.oidMap = List.zipWith OidEntry.mk types oids

/-- A success that is reported stands for a connection that was established. -/
def Truthful (types : List Registered) (past : List ConnectEvent) (c : Connect) : Prop :=
  ∀ ec ∈ c.calls, ec.failed = false → EstablishedBy types past c.conn

/-- What is kept along a run. -/
structure Accounted (types : List Registered) (past : List ConnectEvent) (c : Connect) : Prop where
  requested : c.oidRequests ≠ 0 → ∃ event ∈ past, PollsOk event
  truthful : c.Truthful types past

section Accounts

variable {types : List Registered} {c : Connect} {past : List ConnectEvent}

theorem Accounted.of_waiting (noRequest : c.oidRequests = 0) (noCall : c.calls = []) :
    c.Accounted types past := by
  refine ⟨fun pending => absurd noRequest pending, ?_⟩
  rw [Truthful, noCall]
  nofun

theorem Running.accounted_done (running : c.Running types) {ec : ErrorCode}
    (established : ec.failed = false → ∃ event ∈ past, PollsOk event) :
    (c.done ec).Accounted types past := by
  unfold Connect.done
  split <;> rename_i requests
  · refine ⟨fun _ => established requests.2, ?_⟩
    rw [Truthful, running.calls]
    nofun
  · refine ⟨fun pending => absurd running.oidRequests pending, ?_⟩
    intro code member succeeds
    rw [running.calls] at member
    cases List.mem_singleton.mp member
    refine ⟨established succeeds, fun registered => absurd ⟨?_, succeeds⟩ requests⟩
    intro none
    have types_eq := running.types_eq
    rw [none] at types_eq
    exact registered types_eq.symm

theorem Running.accounted_perform (running : c.Running types) (start : Option ConnStatus)
    (assign : ErrorCode) : (c.perform start assign).Accounted types past := by
  unfold Connect.perform
  split
  · exact running.accounted_done nofun
  · split
    · exact running.accounted_done nofun
    · split <;> rename_i failed
      · exact running.accounted_done fun succeeds =>
          absurd (succeeds.symm.trans failed) Bool.false_ne_true
      · exact .of_waiting running.oidRequests running.calls

theorem Running.accounted_connectOp (running : c.Running types) {event : ConnectEvent}
    {ec : ErrorCode} {poll : Polling} (completes : ec.failed = false → poll = .ok → PollsOk event) :
    (c.connectOp ec poll).Accounted types (past ++ [event]) := by
  unfold Connect.connectOp
  split <;> rename_i failed
  · apply Running.accounted_done
    · rcases running with ⟨started, types_eq, noWrite, noRead, noRequest, noCall⟩
      refine ⟨started, ?_, noWrite, noRead, noRequest, noCall⟩
      split
      · exact types_eq
      · exact types_eq
    · exact fun succeeds => absurd (succeeds.symm.trans failed) Bool.false_ne_true
  · cases poll with
    | ok =>
        apply running.accounted_done
        intro _
        exact ⟨event, List.mem_append_right _ List.mem_cons_self,
          completes (Bool.eq_false_iff.mpr failed) rfl⟩
    | writing | reading => exact .of_waiting running.oidRequests running.calls
    | failed | active => exact running.accounted_done nofun

/-- The handler is invoked behind the answer to the request for oids. -/
theorem Running.accounted_oidMapOp (running : c.Running types)
    (polled : ∃ event ∈ past, PollsOk event) (ec : ErrorCode) (context : String)
    (oids : List Oid) :
    (c.oidMapOp ec context oids).Accounted types (past ++ [.oidResponse ec context oids]) := by
  rcases polled with ⟨event, member, pollsOk⟩
  have polled : ∃ event ∈ past ++ [.oidResponse ec context oids], PollsOk event :=
    ⟨event, List.mem_append_left _ member, pollsOk⟩
  unfold Connect.oidMapOp
  split <;> rename_i answered
  · refine ⟨fun pending => absurd running.oidRequests pending, ?_⟩
    intro code member succeeds
    rw [running.calls] at member
    cases List.mem_singleton.mp member
    exact absurd (succeeds.symm.trans answered) Bool.false_ne_true
  · split <;> rename_i set
    · refine ⟨fun pending => absurd running.oidRequests pending, ?_⟩
      intro code member succeeds
      have done : (setOidMap c.conn.oidMap oids).2 = none := by rw [set]
      rcases (setOidMap_succeeds_iff _ _).mp done with ⟨length_eq, oid_ne⟩
      have inOrder := setOidMap_eq done
      rw [running.types_eq, set] at inOrder
      refine ⟨polled, fun _ => ⟨ec, context, oids, ?_, Bool.eq_false_iff.mpr answered, ?_, oid_ne,
        inOrder⟩⟩
      · exact List.mem_append_right _ List.mem_cons_self
      · rw [← length_eq, ← running.types_eq, List.length_map]
    · refine ⟨fun pending => absurd running.oidRequests pending, ?_⟩
      intro code member succeeds
      rw [running.calls] at member
      cases List.mem_singleton.mp member
      cases succeeds

theorem Accounted.step (accounted : c.Accounted types past) (sound : c.Sound types)
    {event : ConnectEvent} {next : Connect} (taken : c.step event = some next) :
    next.Accounted types (past ++ [event]) := by
  cases event with
  | perform start assign =>
      simp only [Connect.step, sound.started, if_true] at taken
      cases taken
  | writeComplete ec poll =>
      simp only [Connect.step] at taken
      split at taken <;> rename_i pending
      · cases taken
      · cases taken
        have running := sound.running_of_wait (c.writeWaits - 1) c.readWaits (by omega)
          (by omega)
        exact running.accounted_connectOp fun succeeds polls => ⟨succeeds, polls⟩
  | readComplete ec poll =>
      simp only [Connect.step] at taken
      split at taken <;> rename_i pending
      · cases taken
      · cases taken
        have running := sound.running_of_wait c.writeWaits (c.readWaits - 1) (by omega)
          (by omega)
        exact running.accounted_connectOp fun succeeds polls => ⟨succeeds, polls⟩
  | oidResponse ec context oids =>
      simp only [Connect.step] at taken
      split at taken <;> rename_i pending
      · cases taken
      · cases taken
        exact (sound.running_of_request pending).accounted_oidMapOp (accounted.requested pending)
          ec context oids

/-- Behind the events of a run nothing has happened yet, or the operation is
sound and accounted for. -/
def Begun (conn : Rep) (past : List ConnectEvent) (c : Connect) : Prop :=
  (past = [] ∧ c = initial conn) ∨ (c.Sound (conn.oidMap.map OidEntry.type) ∧
    c.Accounted (conn.oidMap.map OidEntry.type) past)

theorem begun_of_run {conn : Rep} {events : List ConnectEvent}
    (ran : run Connect.step (initial conn) events = some c) : Begun conn events c := by
  apply run_invariant ran
  · exact .inl ⟨rfl, rfl⟩
  · rintro past state event next (⟨rfl, rfl⟩ | ⟨sound, accounted⟩) taken
    · cases event with
      | perform start assign =>
          refine .inr ⟨Sound.perform taken, ?_⟩
          cases taken
          apply Running.accounted_perform
          exact ⟨rfl, rfl, rfl, rfl, rfl, rfl⟩
      | writeComplete ec poll => cases taken
      | readComplete ec poll => cases taken
      | oidResponse ec context oids => cases taken
    · exact .inr ⟨sound.step taken, accounted.step sound taken⟩

/-- The operation has been called, and come here. -/
def Reached (conn : Rep) (c : Connect) : Prop :=
  ∃ event events, run Connect.step (initial conn) (event :: events) = some c

theorem Reached.sound {conn : Rep} (reached : c.Reached conn) :
    c.Sound (conn.oidMap.map OidEntry.type) := by
  rcases reached with ⟨event, events, ran⟩
  rcases begun_of_run ran with ⟨none, -⟩ | ⟨sound, -⟩
  · cases none
  · exact sound

theorem Reached.step {conn : Rep} (reached : c.Reached conn) {event : ConnectEvent}
    {next : Connect} (taken : c.step event = some next) : next.Reached conn := by
  rcases reached with ⟨first, events, ran⟩
  refine ⟨first, events ++ [event], ?_⟩
  rw [← List.cons_append, run_append ran, run_cons taken]
  rfl

theorem Reached.perform {conn : Rep} {start : Option ConnStatus} {assign : ErrorCode}
    (performed : (initial conn).step (.perform start assign) = some c) : c.Reached conn :=
  ⟨.perform start assign, [], run_cons performed⟩

end Accounts

end Connect

/-- A custom type whose oid is requested. -/
def pointConnection : Rep :=
  ⟨none, registerTypes [⟨"point_t", "point"⟩], ""⟩

/-- The connection is polled until it is established, and the oid arrives. -/
def pointEvents : List ConnectEvent :=
  [.writeComplete .success .reading, .readComplete .success .ok, .oidResponse .success "" [600]]

def pointConnected : Connect where
  conn := ⟨some .establishing, [⟨⟨"point_t", "point"⟩, 600⟩], ""⟩
  started := true
  writeWaits := 0
  readWaits := 0
  oidRequests := 0
  calls := [.success]

/-- What the assignment of the stream is answered with. -/
def Attempt.assigned (attempt : Attempt) : ErrorCode :=
  if attempt.socket = -1 then Error.pqSocketFailed.code else .success

namespace Connect

/-- The operation when it neither waits nor has called its handler. -/
def performing (conn : Rep) : Connect :=
  { initial conn with started := true }

/-- The completion of the one wait that is pending. -/
def completion (c : Connect) (ec : ErrorCode) (poll : Polling) : ConnectEvent :=
  if c.writeWaits = 0 then .readComplete ec poll else .writeComplete ec poll

theorem step_completion {c : Connect} (one : c.writeWaits + c.readWaits = 1)
    (ec : ErrorCode) (poll : Polling) :
    c.step (c.completion ec poll) =
      some ({ c with writeWaits := 0, readWaits := 0 }.connectOp ec poll) := by
  unfold completion
  split <;> rename_i writes
  · have reads : c.readWaits = 1 := by omega
    simp only [Connect.step, reads, Nat.one_ne_zero, if_false, Nat.sub_self, writes]
  · have writing : c.writeWaits = 1 := by omega
    have reads : c.readWaits = 0 := by omega
    simp only [Connect.step, writing, Nat.one_ne_zero, if_false, Nat.sub_self, reads]

/-- The polls of an attempt, up to what its handler or the request for oids is
left with. -/
theorem run_of_asyncConnectOp {polls : List (ErrorCode × Polling)} {c : Connect}
    (one : c.writeWaits + c.readWaits = 1) {ec : ErrorCode} {established : Rep}
    (outcome : asyncConnectOp c.conn polls = some (ec, established)) :
    ∃ events, run Connect.step c events =
      some ({ c with conn := established, writeWaits := 0, readWaits := 0 }.done ec) := by
  induction polls generalizing c with
  | nil => cases outcome
  | cons first polls ih =>
      rcases first with ⟨waited, poll⟩
      have taken := step_completion one waited poll
      unfold asyncConnectOp at outcome
      unfold Connect.connectOp at taken
      split at outcome <;> rename_i failed
      · rw [if_pos failed] at taken
        cases outcome
        exact ⟨[c.completion ec poll], run_cons taken⟩
      · rw [if_neg failed] at taken
        cases poll with
        | ok =>
            cases outcome
            exact ⟨[c.completion waited .ok], run_cons taken⟩
        | writing =>
            rcases ih (c := { c with writeWaits := 1, readWaits := 0 }) rfl outcome with
              ⟨events, ran⟩
            exact ⟨c.completion waited .writing :: events, (run_cons taken).trans ran⟩
        | reading =>
            rcases ih (c := { c with writeWaits := 0, readWaits := 1 }) rfl outcome with
              ⟨events, ran⟩
            exact ⟨c.completion waited .reading :: events, (run_cons taken).trans ran⟩
        | failed | active =>
            cases outcome
            exact ⟨[c.completion waited _], run_cons taken⟩

/-- An attempt before its request for oids. -/
theorem run_of_performConnect {conn established : Rep} {attempt : Attempt} {ec : ErrorCode}
    (outcome : performConnect conn attempt = some (ec, established)) :
    ∃ events, run Connect.step (initial conn)
        (.perform attempt.start attempt.assigned :: events) =
      some ((performing established).done ec) := by
  have performed : (initial conn).step (.perform attempt.start attempt.assigned) =
    some ((performing conn).perform attempt.start attempt.assigned) := rfl
  unfold performConnect at outcome
  unfold Connect.perform at performed
  split at outcome <;> rename_i start
  · cases outcome
    rw [start] at performed ⊢
    exact ⟨[], run_cons performed⟩
  · rename_i status
    rw [start] at performed ⊢
    split at outcome <;> rename_i bad
    · cases outcome
      simp only [bad, if_true] at performed
      exact ⟨[], run_cons performed⟩
    · split at outcome <;> rename_i socket
      · cases outcome
        have assigned : attempt.assigned = Error.pqSocketFailed.code := if_pos socket
        rw [assigned] at performed ⊢
        simp only [bad] at performed
        exact ⟨[], run_cons performed⟩
      · have assigned : attempt.assigned = .success := if_neg socket
        rw [assigned] at performed ⊢
        simp only [bad] at performed
        have waiting := run_of_asyncConnectOp (c := { performing conn with
          conn := { conn with native := some status }, writeWaits := 1 }) rfl outcome
        rcases waiting with ⟨events, ran⟩
        exact ⟨events, (run_cons performed).trans ran⟩

/-- The request for oids of an attempt. -/
theorem step_of_requestOidMap {process : PgResult → Option String} {conn answered : Rep}
    {attempt : Attempt} {ec : ErrorCode}
    (outcome : requestOidMap process conn attempt = some (ec, answered)) :
    ∃ code context, { performing conn with oidRequests := 1 }.step
        (.oidResponse code context attempt.oids) =
      some { performing answered with calls := [ec] } := by
  rcases Option.bind_eq_some_iff.mp outcome with ⟨r, -, called⟩
  rcases Option.map_eq_some_iff.mp called with ⟨code, -, handled⟩
  refine ⟨code, r.errorContext, ?_⟩
  simp only [Connect.step, Nat.one_ne_zero, if_false, Connect.oidMapOp]
  split at handled <;> rename_i failed
  · cases handled
    rw [if_pos failed]
    rfl
  · rw [if_neg failed]
    split at handled <;> rename_i set
    · cases handled
      simp only [performing, initial, set]
      rfl
    · cases handled
      simp only [performing, initial, set]
      rfl

end Connect

/-- An attempt that comes to an end, as the pool knows it, is a run of the
operation that ends with the same call for the same connection. -/
theorem connect_run_of_asyncConnect {process : PgResult → Option String} {types : List Registered}
    {attempt : Attempt} {ec : ErrorCode} {conn : Rep}
    (outcome : asyncConnect process types attempt = some (ec, conn)) :
    ∃ events c, run Connect.step (Connect.initial ⟨none, registerTypes types, ""⟩)
        (.perform attempt.start attempt.assigned :: events) = some c ∧
      c.calls = [ec] ∧ c.conn.withStatus attempt.status = conn := by
  rcases Option.map_eq_some_iff.mp outcome with ⟨⟨code, final⟩, connected, same⟩
  cases same
  rcases Option.bind_eq_some_iff.mp connected with ⟨⟨polledCode, polledConn⟩, performed, rest⟩
  rcases Connect.run_of_performConnect performed with ⟨events, ran⟩
  have registered : polledConn.oidMap = [] ↔ types = [] := by
    have types_eq := (Connect.Reached.sound ⟨_, _, ran⟩).types_eq
    have kept : ((Connect.performing polledConn).done polledCode).conn = polledConn := by
      unfold Connect.done
      split
      · rfl
      · rfl
    rw [kept] at types_eq
    rw [← List.map_eq_nil_iff (f := OidEntry.type), types_eq]
    simp [registerTypes]
  unfold Connect.done at ran
  simp only at rest
  split at rest <;> rename_i noTypes
  · cases rest
    rw [if_neg fun requests => requests.1 (registered.mpr noTypes)] at ran
    exact ⟨events, _, ran, rfl, rfl⟩
  · split at rest <;> rename_i failed
    · cases rest
      rw [if_neg fun requests => absurd (requests.2.symm.trans failed) Bool.false_ne_true] at ran
      exact ⟨events, _, ran, rfl, rfl⟩
    · rw [if_pos ⟨mt registered.mp noTypes, Bool.eq_false_iff.mpr failed⟩] at ran
      rcases Connect.step_of_requestOidMap rest with ⟨answer, context, answered⟩
      refine ⟨events ++ [.oidResponse answer context attempt.oids],
        { Connect.performing final with calls := [ec] }, ?_, rfl, rfl⟩
      rw [← List.cons_append, run_append ran]
      exact run_cons answered

end Bozo.Impl
