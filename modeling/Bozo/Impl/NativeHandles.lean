import Bozo.Impl.ConnectionPool
import Bozo.Resource.Ledger
import Mathlib.Tactic.Abel

/-!
# Who owns the native handles

Every native handle that `PQconnectStart` returns is given to `PQfinish` by the
unique pointer that owns it.  The pointer moves between connections, the
representations of a pool, the connections that a pool hands out and the user.
The descriptor of a handle belongs to `libpq`, so that a stream that is
registered for it has to be released before the stream is closed.

Handles are numbered in the order of their start.  `libpq` opens another
descriptor when `PQconnectPoll` goes on to the next address of a handle.
-/

namespace Bozo.Impl

open Bozo.Resource
open Bozo.Transition

/-- The descriptor that a handle has at one of its addresses. -/
structure Descriptor where
  handle : Nat
  address : Nat
  deriving DecidableEq, Repr

/-- The calls of `PQconnectStart` and `PQfinish`, the address that a handle has
got to, and the descriptors that were closed by a stream. -/
structure Native where
  handles : Ledger
  address : Nat → Nat
  closed : List Descriptor

namespace Native

def empty : Native where
  handles := .empty
  address := fun _ => 0
  closed := []

/-- What `PQsocket` stands for. -/
def descriptor (w : Native) (handle : Nat) : Descriptor :=
  ⟨handle, w.address handle⟩

/-- The deleter of `bozo::pg::conn`. -/
def finish (w : Native) (handle : Option Nat) : Native :=
  { w with handles := w.handles.finish handle }

/-- A stream that is assigned to or destroyed closes its descriptor. -/
def closeStream (w : Native) (stream : Option Descriptor) : Native :=
  { w with closed := w.closed ++ stream.toList }

end Native

/-! ## The objects -/

/-- `connection`. -/
structure Connection where
  handle : Option Nat
  socket : Option Descriptor
  deriving DecidableEq, Repr

namespace Connection

/-- The constructor of `connection`. -/
def create : Connection where
  handle := none
  socket := none

/-- `connection::assign`.  The descriptor number is that of `PQsocket`; a
stream may refuse it with an exception.  The last component is what the
argument still owns. -/
def assign (conn : Connection) (w : Native) (handle : Nat) (fd : Int) (registered : Bool) :
    Native × Connection × Option Nat :=
  if fd = -1 then
    (w, conn, some handle)
  else if registered then
    -- `socket_.release()`
    let conn := { conn with socket := none }
    let w := w.closeStream conn.socket
    let conn := { conn with socket := some (w.descriptor handle) }
    let w := w.finish conn.handle
    (w, { conn with handle := some handle }, none)
  else
    (w, conn, some handle)

/-- `async_connect_op::perform` up to the first wait.  The argument is what
`PQconnectStart` returns, with the status of the handle. -/
def perform (conn : Connection) (w : Native) (start : Option ConnStatus) (fd : Int)
    (registered : Bool) : Native × Connection :=
  match start with
  | none => (w, conn)
  | some status =>
      let handle := w.handles.acquired
      let w := { w with handles := w.handles.acquire }
      if connectionStatusBad (some status) then
        (w.finish (some handle), conn)
      else
        let (w, conn, rest) := conn.assign w handle fd registered
        (w.finish rest, conn)

/-- `connection::release`. -/
def release (conn : Connection) : Connection × Option Nat :=
  ({ handle := none, socket := none }, conn.handle)

/-- `connection::close`. -/
def close (conn : Connection) (w : Native) : Native × Connection :=
  let (conn, handle) := conn.release
  (w.finish handle, conn)

/-- `~connection`, with the members. -/
def destroy (conn : Connection) (w : Native) : Native :=
  let (w, conn) := conn.close w
  (w.closeStream conn.socket).finish conn.handle

end Connection

/-- `pooled_connection`.  The handle of the pool is not empty. -/
structure PooledConnection where
  native : Option Nat
  stream : Option Descriptor
  deriving DecidableEq, Repr

namespace PooledConnection

/-- The constructor of `pooled_connection`; `none` is the exception of a stream
that refuses the descriptor. -/
def create (w : Native) (native : Option Nat) (fd : Int) (registered : Bool) :
    Option PooledConnection :=
  match native with
  -- `PQsocket` of a null pointer is `-1`.
  | none => some ⟨none, none⟩
  | some handle =>
      if fd = -1 then
        some ⟨some handle, none⟩
      else if registered then
        some ⟨some handle, some (w.descriptor handle)⟩
      else
        none

/-- `pooled_connection::close`. -/
def close (conn : PooledConnection) (w : Native) : Native × PooledConnection :=
  let conn := { conn with stream := none }
  (w.finish conn.native, { conn with native := none })

end PooledConnection

/-- The connections, the handles that were released to the user, the
representations that were put back, the handles of the requests for which an
attempt is made, and the connections of the pool that are in use. -/
structure Handles where
  native : Native
  connections : List Connection
  released : List Nat
  recycled : List (Option Nat)
  connecting : List (Option (Option Nat))
  inUse : List PooledConnection

namespace Handles

def empty : Handles where
  native := .empty
  connections := []
  released := []
  recycled := []
  connecting := []
  inUse := []

/-- A representation is handed out as a `pooled_connection`.  If that fails, the
handle of the pool is destroyed and puts it back. -/
def deliver (s : Handles) (native : Option Nat) (fd : Int) (registered : Bool) : Handles :=
  match PooledConnection.create s.native native fd registered with
  | some conn => { s with inUse := s.inUse ++ [conn] }
  | none => { s with recycled := s.recycled ++ [native] }

/-- `pooled_connection_wrapper::operator()` with a handle that is not empty. -/
def reuse (s : Handles) (native : Option Nat) (status : ConnStatus) (fd : Int)
    (registered : Bool) : Handles :=
  if connectionStatusBad (native.map fun _ => status) then
    { s with connecting := s.connecting ++ [some native] }
  else
    s.deliver native fd registered

/-- `~pooled_connection`, with the members.  A handle that is wasted destroys
its representation. -/
def drop (s : Handles) (conn : PooledConnection) (status : ConnStatus)
    (transactionStatus : TransactionStatus) : Handles :=
  let conn := { conn with stream := none }
  let native := s.native.closeStream conn.stream
  if !connectionStatusOk (conn.native.map fun _ => status) || transactionStatus ≠ .idle then
    { s with native := native.finish conn.native }
  else
    { s with native := native, recycled := s.recycled ++ [conn.native] }

end Handles

/-- Who does what with a handle.  The positions say which object it is about. -/
inductive HandleEvent
  | created
  | performed (position : Nat) (start : Option ConnStatus) (fd : Int) (registered : Bool)
  -- `PQconnectPoll` goes on to the next address.
  | moved (handle : Nat)
  | closed (position : Nat)
  | destroyed (position : Nat)
  | released (position : Nat)
  | assigned (position : Nat) (handle : Nat) (fd : Int) (registered : Bool)
  -- The user destroys a handle that was released.
  | discarded (handle : Nat)
  -- The pool answers a request with a handle; `none` is an empty one.
  | got (handle : Option Nat) (status : ConnStatus) (fd : Int) (registered : Bool)
  -- The source of connections provides a connection, or a null pointer.
  | connected (position : Nat) (connection : Nat) (fd : Int) (registered : Bool)
  | refused (position : Nat)
  | closedInUse (position : Nat)
  | dropped (position : Nat) (status : ConnStatus) (transactionStatus : TransactionStatus)
  | expired (position : Nat)

/-- What an operation does; `none` means that there is nothing at its
position. -/
def Handles.step (s : Handles) : HandleEvent → Option Handles
  | .created => some { s with connections := s.connections ++ [.create] }
  | .performed position start fd registered =>
      s.connections[position]?.map fun conn =>
        let (native, conn) := conn.perform s.native start fd registered
        { s with native := native, connections := s.connections.set position conn }
  | .moved handle =>
      some { s with native :=
        { s.native with
          address := Function.update s.native.address handle (s.native.address handle + 1) } }
  | .closed position =>
      s.connections[position]?.map fun conn =>
        let (native, conn) := conn.close s.native
        { s with native := native, connections := s.connections.set position conn }
  | .destroyed position =>
      s.connections[position]?.map fun conn =>
        { s with
          native := conn.destroy s.native
          connections := s.connections.eraseIdx position }
  | .released position =>
      s.connections[position]?.map fun conn =>
        let (conn, handle) := conn.release
        { s with
          connections := s.connections.set position conn
          released := s.released ++ handle.toList }
  | .assigned position handle fd registered =>
      s.connections[position]?.bind fun conn =>
        s.released[handle]?.map fun given =>
          let (native, conn, rest) := conn.assign s.native given fd registered
          { s with
            native := native
            connections := s.connections.set position conn
            released := s.released.eraseIdx handle ++ rest.toList }
  | .discarded handle =>
      s.released[handle]?.map fun given =>
        { s with
          native := s.native.finish (some given)
          released := s.released.eraseIdx handle }
  | .got none _ _ _ => some { s with connecting := s.connecting ++ [none] }
  | .got (some position) status fd registered =>
      s.recycled[position]?.map fun native =>
        { s with recycled := s.recycled.eraseIdx position }.reuse native status fd registered
  | .connected position connection fd registered =>
      s.connecting[position]?.bind fun handle =>
        s.connections[connection]?.map fun conn =>
          let (conn, native) := conn.release
          -- `handle_.reset` destroys the representation that the handle has.
          { s with
            native := s.native.finish handle.join
            connections := s.connections.set connection conn
            connecting := s.connecting.eraseIdx position }.deliver native fd registered
  | .refused position =>
      s.connecting[position]?.map fun handle =>
        { s with
          recycled := s.recycled ++ handle.toList
          connecting := s.connecting.eraseIdx position }
  | .closedInUse position =>
      s.inUse[position]?.map fun conn =>
        let (native, conn) := conn.close s.native
        { s with native := native, inUse := s.inUse.set position conn }
  | .dropped position status transactionStatus =>
      s.inUse[position]?.map fun conn =>
        { s with inUse := s.inUse.eraseIdx position }.drop conn status transactionStatus
  | .expired position =>
      s.recycled[position]?.map fun native =>
        { s with
          native := s.native.finish native
          recycled := s.recycled.eraseIdx position }

/-! ## Every handle has one owner -/

open Ledger (owned)

/-- The stream is registered for a descriptor of the handle that the same
object owns. -/
def Attached (address : Nat → Nat) (handle : Option Nat) (stream : Option Descriptor) : Prop :=
  ∀ d, stream = some d → handle = some d.handle ∧ d.address ≤ address d.handle

theorem attached_none {address : Nat → Nat} {handle : Option Nat} :
    Attached address handle none := by
  intro d stream
  cases stream

theorem Native.attached_descriptor (w : Native) (handle : Nat) :
    Attached w.address (some handle) (some (w.descriptor handle)) := by
  rintro d ⟨⟩
  exact ⟨rfl, le_rfl⟩

theorem Attached.moved {address : Nat → Nat} {handle : Option Nat} {stream : Option Descriptor}
    (attached : Attached address handle stream) (other : Nat) :
    Attached (Function.update address other (address other + 1)) handle stream := by
  intro d here
  rcases attached d here with ⟨owns, le⟩
  refine ⟨owns, le.trans ?_⟩
  by_cases same : d.handle = other
  · rw [same, Function.update_self]
    exact Nat.le_succ _
  · rw [Function.update_of_ne same]

namespace Connection

variable {w : Native} {conn : Connection} {rest : Multiset Nat}

/-- What the argument of `assign` and the connection own before, they own or
give up. -/
theorem assign_accounts {handle : Nat} {fd : Int} {registered : Bool}
    (accounts : w.handles.Accounts (owned (some handle) + (owned conn.handle + rest))) :
    (conn.assign w handle fd registered).1.handles.Accounts
      (owned (conn.assign w handle fd registered).2.2 +
        (owned (conn.assign w handle fd registered).2.1.handle + rest)) := by
  unfold assign
  split
  · exact accounts
  · split
    · rw [add_left_comm] at accounts
      have finished := Ledger.Accounts.finish accounts
      rwa [← zero_add (owned (some handle) + rest)] at finished
    · exact accounts

theorem perform_accounts {start : Option ConnStatus} {fd : Int} {registered : Bool}
    (accounts : w.handles.Accounts (owned conn.handle + rest)) :
    (conn.perform w start fd registered).1.handles.Accounts
      (owned (conn.perform w start fd registered).2.handle + rest) := by
  cases start with
  | none => exact accounts
  | some status =>
      have acquired := Ledger.Accounts.acquire accounts
      simp only [perform]
      split
      · exact Ledger.Accounts.finish acquired
      · exact Ledger.Accounts.finish
          (assign_accounts (w := { w with handles := w.handles.acquire }) acquired)

/-- No descriptor is closed and no handle goes on to another address. -/
theorem assign_native (handle : Nat) (fd : Int) (registered : Bool) :
    (conn.assign w handle fd registered).1.closed = w.closed ∧
      (conn.assign w handle fd registered).1.address = w.address := by
  unfold assign
  split
  · exact ⟨rfl, rfl⟩
  · split
    · exact ⟨List.append_nil _, rfl⟩
    · exact ⟨rfl, rfl⟩

theorem assign_attached {handle : Nat} {fd : Int} {registered : Bool}
    (attached : Attached w.address conn.handle conn.socket) :
    Attached w.address (conn.assign w handle fd registered).2.1.handle
      (conn.assign w handle fd registered).2.1.socket := by
  unfold assign
  split
  · exact attached
  · split
    · exact w.attached_descriptor handle
    · exact attached

theorem perform_native (start : Option ConnStatus) (fd : Int) (registered : Bool) :
    (conn.perform w start fd registered).1.closed = w.closed ∧
      (conn.perform w start fd registered).1.address = w.address := by
  cases start with
  | none => exact ⟨rfl, rfl⟩
  | some status =>
      simp only [perform]
      split
      · exact ⟨rfl, rfl⟩
      · exact assign_native (w := { w with handles := w.handles.acquire }) w.handles.acquired fd
          registered

theorem perform_attached {start : Option ConnStatus} {fd : Int} {registered : Bool}
    (attached : Attached w.address conn.handle conn.socket) :
    Attached w.address (conn.perform w start fd registered).2.handle
      (conn.perform w start fd registered).2.socket := by
  cases start with
  | none => exact attached
  | some status =>
      simp only [perform]
      split
      · exact attached
      · exact assign_attached (w := { w with handles := w.handles.acquire }) attached

theorem destroy_accounts (accounts : w.handles.Accounts (owned conn.handle + rest)) :
    (conn.destroy w).handles.Accounts rest := by
  have closed := Ledger.Accounts.finish accounts
  rw [← zero_add rest] at closed
  exact Ledger.Accounts.finish closed

end Connection

theorem PooledConnection.create_native {w : Native} {native : Option Nat} {fd : Int}
    {registered : Bool} {conn : PooledConnection}
    (created : PooledConnection.create w native fd registered = some conn) :
    conn.native = native ∧ Attached w.address conn.native conn.stream := by
  unfold create at created
  split at created
  · cases created
    exact ⟨rfl, attached_none⟩
  · split at created
    · cases created
      exact ⟨rfl, attached_none⟩
    · split at created
      · cases created
        exact ⟨rfl, w.attached_descriptor _⟩
      · cases created

namespace Handles

/-- What all objects own. -/
def held (s : Handles) : Multiset Nat :=
  total (fun conn => owned conn.handle) s.connections +
    total (fun handle => owned (some handle)) s.released + total owned s.recycled +
    total (fun handle => owned handle.join) s.connecting +
    total (fun conn => owned conn.native) s.inUse

/-- Every handle has one owner or was finished, no stream closed a descriptor,
and the streams are attached to the handles of their objects. -/
structure Sound (s : Handles) : Prop where
  accounts : s.native.handles.Accounts s.held
  closed : s.native.closed = []
  connections : ∀ conn ∈ s.connections, Attached s.native.address conn.handle conn.socket
  inUse : ∀ conn ∈ s.inUse, Attached s.native.address conn.native conn.stream

theorem Sound.empty : Handles.empty.Sound := by
  refine ⟨.empty, rfl, ?_, ?_⟩ <;> intro conn member <;> cases member

variable {s : Handles} {position : Nat}

/-- What the other objects own. -/
theorem held_connection {conn : Connection} (here : s.connections[position]? = some conn) :
    s.held = owned conn.handle + { s with connections := s.connections.eraseIdx position }.held := by
  simp only [held, ← total_eraseIdx here]
  abel

theorem held_set {conn : Connection} (here : s.connections[position]? = some conn)
    (changed : Connection) :
    { s with connections := s.connections.set position changed }.held =
      owned changed.handle +
        { s with connections := s.connections.eraseIdx position }.held := by
  simp only [held, total_set here]
  abel

/-- What a connection owns is taken from it. -/
theorem held_taken {conn : Connection} (here : s.connections[position]? = some conn) :
    s.held = owned conn.handle +
      { s with connections := s.connections.set position ⟨none, none⟩ }.held := by
  rw [held_connection here, held_set here, Ledger.owned_none, zero_add]

theorem held_inUse {conn : PooledConnection} (here : s.inUse[position]? = some conn) :
    s.held = owned conn.native + { s with inUse := s.inUse.eraseIdx position }.held := by
  simp only [held, ← total_eraseIdx here]
  abel

theorem held_takenInUse {conn : PooledConnection} (here : s.inUse[position]? = some conn) :
    s.held = owned conn.native + { s with inUse := s.inUse.set position ⟨none, none⟩ }.held := by
  simp only [held, ← total_eraseIdx here, total_set here, Ledger.owned_none]
  abel

theorem held_recycled {native : Option Nat} (here : s.recycled[position]? = some native) :
    s.held = owned native + { s with recycled := s.recycled.eraseIdx position }.held := by
  simp only [held, ← total_eraseIdx here]
  abel

theorem held_connecting {handle : Option (Option Nat)}
    (here : s.connecting[position]? = some handle) :
    s.held = owned handle.join + { s with connecting := s.connecting.eraseIdx position }.held := by
  simp only [held, ← total_eraseIdx here]
  abel

theorem held_released {handle : Nat} (here : s.released[position]? = some handle) :
    s.held = owned (some handle) + { s with released := s.released.eraseIdx position }.held := by
  simp only [held, ← total_eraseIdx here]
  abel

/-- A handle is given to the user. -/
theorem held_release (s : Handles) (handle : Option Nat) :
    { s with released := s.released ++ handle.toList }.held = owned handle + s.held := by
  have given : total (fun handle => owned (some handle)) handle.toList = owned handle := by
    cases handle <;> simp
  simp only [held, total_append, given]
  abel

/-- A handle of the pool puts back what it has. -/
theorem held_recycle (s : Handles) (handle : Option (Option Nat)) :
    { s with recycled := s.recycled ++ handle.toList }.held = owned handle.join + s.held := by
  have given : total owned handle.toList = owned handle.join := by
    cases handle <;> simp
  simp only [held, total_append, given]
  abel

theorem held_connect (s : Handles) (handle : Option (Option Nat)) :
    { s with connecting := s.connecting ++ [handle] }.held = owned handle.join + s.held := by
  simp only [held, total_append, total_singleton]
  abel

theorem held_deliver (s : Handles) (native : Option Nat) (fd : Int) (registered : Bool) :
    (s.deliver native fd registered).held = owned native + s.held := by
  unfold deliver
  split
  · rename_i conn created
    simp only [held, total_append, total_singleton, (PooledConnection.create_native created).1]
    abel
  · simp only [held, total_append, total_singleton]
    abel

theorem held_reuse (s : Handles) (native : Option Nat) (status : ConnStatus) (fd : Int)
    (registered : Bool) : (s.reuse native status fd registered).held = owned native + s.held := by
  unfold reuse
  split
  · exact held_connect s (some native)
  · exact held_deliver s native fd registered

theorem Sound.deliver {native : Option Nat} {fd : Int} {registered : Bool}
    (accounts : s.native.handles.Accounts (owned native + s.held)) (closed : s.native.closed = [])
    (connections : ∀ conn ∈ s.connections, Attached s.native.address conn.handle conn.socket)
    (inUse : ∀ conn ∈ s.inUse, Attached s.native.address conn.native conn.stream) :
    (s.deliver native fd registered).Sound := by
  rw [← held_deliver s native fd registered] at accounts
  unfold Handles.deliver at accounts ⊢
  split
  · rename_i conn created
    rw [created] at accounts
    refine ⟨accounts, closed, connections, ?_⟩
    intro other member
    rcases List.mem_append.mp member with before | here
    · exact inUse other before
    · rw [List.mem_singleton.mp here]
      exact (PooledConnection.create_native created).2
  · rename_i refused
    rw [refused] at accounts
    exact ⟨accounts, closed, connections, inUse⟩

/-- A connection without a handle has no stream that is attached. -/
theorem attached_of_set {address : Nat → Nat} {xs : List Connection}
    (connections : ∀ conn ∈ xs, Attached address conn.handle conn.socket) :
    ∀ conn ∈ xs.set position ⟨none, none⟩, Attached address conn.handle conn.socket := by
  intro other member
  rcases List.mem_or_eq_of_mem_set member with before | rfl
  · exact connections other before
  · exact attached_none

/-- One connection is changed by an operation that accounts for what it owned. -/
theorem Sound.set {conn changed : Connection} {native : Native}
    (here : s.connections[position]? = some conn)
    (accounts : native.handles.Accounts (owned changed.handle +
      { s with connections := s.connections.eraseIdx position }.held))
    (closed : native.closed = []) (address : native.address = s.native.address)
    (attached : Attached s.native.address changed.handle changed.socket)
    (connections : ∀ conn ∈ s.connections, Attached s.native.address conn.handle conn.socket)
    (inUse : ∀ conn ∈ s.inUse, Attached s.native.address conn.native conn.stream) :
    { s with native := native, connections := s.connections.set position changed }.Sound := by
  refine ⟨?_, closed, ?_, ?_⟩
  · rw [← held_set here] at accounts
    exact accounts
  · intro other member
    show Attached native.address other.handle other.socket
    rw [address]
    rcases List.mem_or_eq_of_mem_set member with before | rfl
    · exact connections other before
    · exact attached
  · show ∀ conn ∈ s.inUse, Attached native.address conn.native conn.stream
    rw [address]
    exact inUse

/-- One operation. -/
theorem Sound.step {next : Handles} {event : HandleEvent} (sound : s.Sound)
    (taken : s.step event = some next) : next.Sound := by
  rcases sound with ⟨accounts, closed, connections, inUse⟩
  cases event with
  | created =>
      cases taken
      refine ⟨?_, closed, ?_, inUse⟩
      · simpa [held, Connection.create] using accounts
      · intro conn member
        rcases List.mem_append.mp member with before | here
        · exact connections conn before
        · rw [List.mem_singleton.mp here]
          exact attached_none
  | performed position start fd registered =>
      rcases Option.map_eq_some_iff.mp taken with ⟨conn, here, rfl⟩
      rw [held_connection here] at accounts
      have native := conn.perform_native (w := s.native) start fd registered
      exact Sound.set here (Connection.perform_accounts accounts) (native.1.trans closed) native.2
        (Connection.perform_attached (connections conn (List.mem_of_getElem? here)))
        connections inUse
  | moved handle =>
      cases taken
      exact ⟨accounts, closed, fun conn member => (connections conn member).moved handle,
        fun conn member => (inUse conn member).moved handle⟩
  | closed position =>
      rcases Option.map_eq_some_iff.mp taken with ⟨conn, here, rfl⟩
      rw [held_taken here] at accounts
      exact ⟨Ledger.Accounts.finish accounts, closed, attached_of_set connections, inUse⟩
  | destroyed position =>
      rcases Option.map_eq_some_iff.mp taken with ⟨conn, here, rfl⟩
      rw [held_connection here] at accounts
      refine ⟨Connection.destroy_accounts accounts, ?_, ?_, inUse⟩
      · exact (List.append_nil _).trans closed
      · exact fun other member => connections other (List.mem_of_mem_eraseIdx member)
  | released position =>
      rcases Option.map_eq_some_iff.mp taken with ⟨conn, here, rfl⟩
      rw [held_taken here, ← held_release] at accounts
      exact ⟨accounts, closed, attached_of_set connections, inUse⟩
  | assigned position handle fd registered =>
      rcases Option.bind_eq_some_iff.mp taken with ⟨conn, here, rest⟩
      rcases Option.map_eq_some_iff.mp rest with ⟨given, there, rfl⟩
      have attached := connections conn (List.mem_of_getElem? here)
      have native := conn.assign_native (w := s.native) given fd registered
      rw [held_released there,
        held_connection (s := { s with released := s.released.eraseIdx handle }) here] at accounts
      have moved : (conn.assign s.native given fd registered).1.handles.Accounts _ :=
        Connection.assign_accounts accounts
      rw [add_left_comm, ← held_release] at moved
      exact Sound.set
        (s := { s with
          released := s.released.eraseIdx handle ++
            (conn.assign s.native given fd registered).2.2.toList })
        here moved (native.1.trans closed) native.2 (Connection.assign_attached attached)
        connections inUse
  | discarded handle =>
      rcases Option.map_eq_some_iff.mp taken with ⟨given, here, rfl⟩
      rw [held_released here] at accounts
      exact ⟨Ledger.Accounts.finish accounts, closed, connections, inUse⟩
  | got handle status fd registered =>
      cases handle with
      | none =>
          cases taken
          refine ⟨?_, closed, connections, inUse⟩
          have same := held_connect s none
          rw [Option.join_none, Ledger.owned_none, zero_add] at same
          rw [same]
          exact accounts
      | some position =>
          rcases Option.map_eq_some_iff.mp taken with ⟨native, here, rfl⟩
          rw [held_recycled here] at accounts
          unfold Handles.reuse
          split
          · refine ⟨?_, closed, connections, inUse⟩
            rw [held_connect]
            exact accounts
          · exact Sound.deliver accounts closed connections inUse
  | connected position connection fd registered =>
      rcases Option.bind_eq_some_iff.mp taken with ⟨handle, here, rest⟩
      rcases Option.map_eq_some_iff.mp rest with ⟨conn, there, rfl⟩
      rw [held_connecting here] at accounts
      have finished := Ledger.Accounts.finish accounts
      rw [held_taken (s := { s with connecting := s.connecting.eraseIdx position }) there] at finished
      exact Sound.deliver finished closed (attached_of_set connections) inUse
  | refused position =>
      rcases Option.map_eq_some_iff.mp taken with ⟨handle, here, rfl⟩
      rw [held_connecting here, ← held_recycle] at accounts
      exact ⟨accounts, closed, connections, inUse⟩
  | closedInUse position =>
      rcases Option.map_eq_some_iff.mp taken with ⟨conn, here, rfl⟩
      rw [held_takenInUse here] at accounts
      refine ⟨Ledger.Accounts.finish accounts, closed, connections, ?_⟩
      intro other member
      rcases List.mem_or_eq_of_mem_set member with before | rfl
      · exact inUse other before
      · exact attached_none
  | dropped position status transactionStatus =>
      rcases Option.map_eq_some_iff.mp taken with ⟨conn, here, rfl⟩
      rw [held_inUse here] at accounts
      have others : ∀ other ∈ s.inUse.eraseIdx position,
          Attached s.native.address other.native other.stream :=
        fun other member => inUse other (List.mem_of_mem_eraseIdx member)
      have unclosed : s.native.closed ++ [] = [] := (List.append_nil _).trans closed
      simp only [Handles.drop]
      split
      · exact ⟨Ledger.Accounts.finish accounts, unclosed, connections, others⟩
      · rw [← Option.join_some (o := conn.native), ← held_recycle] at accounts
        exact ⟨accounts, unclosed, connections, others⟩
  | expired position =>
      rcases Option.map_eq_some_iff.mp taken with ⟨native, here, rfl⟩
      rw [held_recycled here] at accounts
      exact ⟨Ledger.Accounts.finish accounts, closed, connections, inUse⟩

end Handles

/-- A handle at its first address has one descriptor. -/
theorem descriptor_of_first {w : Native} {stream : Descriptor}
    (le : stream.address ≤ w.address stream.handle) (first : w.address stream.handle = 0) :
    stream = w.descriptor stream.handle := by
  rw [first, Nat.le_zero] at le
  rw [Native.descriptor, first, ← le]

/-- In every run, a handle that was started is owned by one object or was given
to `PQfinish` once; a stream never closes the descriptor of a handle; and a
stream is registered only for a handle that its object owns, so that the handle
was not finished.  The descriptor is the one that `libpq` uses as long as the
handle keeps its first address. -/
theorem native_handle_owned_once (s : Handles)
    (reachable : Reachable Handles.step Any Handles.empty s) :
    (∀ handle, s.held.count handle + s.native.handles.finished.count handle =
        if handle < s.native.handles.acquired then 1 else 0) ∧
      s.native.closed = [] ∧
      ∀ handle stream,
        ((∃ conn ∈ s.connections, conn.handle = handle ∧ conn.socket = some stream) ∨
          ∃ conn ∈ s.inUse, conn.native = handle ∧ conn.stream = some stream) →
        handle = some stream.handle ∧ stream.handle ∉ s.native.handles.finished ∧
          (s.native.address stream.handle = 0 → stream = s.native.descriptor stream.handle) := by
  have sound : s.Sound :=
    reachable.invariant .empty fun _ _ _ sound _ taken => sound.step taken
  refine ⟨sound.accounts.count, sound.closed, ?_⟩
  rintro _ stream (⟨conn, member, rfl, registered⟩ | ⟨conn, member, rfl, registered⟩)
  · rcases List.mem_iff_getElem?.mp member with ⟨position, here⟩
    have owns := sound.connections conn member stream registered
    have holds : stream.handle ∈ s.held := by
      rw [Handles.held_connection here, owns.1]
      exact Multiset.mem_add.mpr (.inl (Multiset.mem_singleton_self _))
    exact ⟨owns.1, sound.accounts.not_finished holds, fun first => descriptor_of_first owns.2 first⟩
  · rcases List.mem_iff_getElem?.mp member with ⟨position, here⟩
    have owns := sound.inUse conn member stream registered
    have holds : stream.handle ∈ s.held := by
      rw [Handles.held_inUse here, owns.1]
      exact Multiset.mem_add.mpr (.inl (Multiset.mem_singleton_self _))
    exact ⟨owns.1, sound.accounts.not_finished holds, fun first => descriptor_of_first owns.2 first⟩

/-- A connection of the pool is put back and turns out to be bad; the request
that is given it gets the connection of another attempt. -/
def replacedWhenBad : List HandleEvent :=
  [.created, .performed 0 (some .establishing) 7 true, .got none .ok 7 true, .connected 0 0 7 true,
    .dropped 0 .ok .idle, .got (some 0) .bad 7 true, .performed 0 (some .establishing) 8 true,
    .connected 0 0 8 true]

theorem native_handle_owned_once_replaced :
    ∃ s, Reachable Handles.step Any Handles.empty s ∧ s.native.handles.finished = [0] ∧
      s.inUse = [⟨some 1, some ⟨1, 0⟩⟩] ∧ s.held.count 1 = 1 ∧ s.native.closed = [] ∧
      1 ∉ s.native.handles.finished := by
  obtain ⟨s, ran, acquired, finished, inUse⟩ :
      ∃ s, run Handles.step Handles.empty replacedWhenBad = some s ∧
        s.native.handles.acquired = 2 ∧ s.native.handles.finished = [0] ∧
        s.inUse = [⟨some 1, some ⟨1, 0⟩⟩] := ⟨_, rfl, rfl, rfl, rfl⟩
  have reachable := reachable_of_run ran
  rcases native_handle_owned_once s reachable with ⟨counts, closed, streams⟩
  have kept := streams (some 1) ⟨1, 0⟩
    (.inr ⟨_, by rw [inUse]; exact List.mem_singleton_self _, rfl, rfl⟩)
  have counted := counts 1
  rw [finished, acquired] at counted
  exact ⟨s, reachable, finished, inUse, counted, closed, kept.2.1⟩

end Bozo.Impl
