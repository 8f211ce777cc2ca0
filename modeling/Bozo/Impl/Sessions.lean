import Bozo.Impl.NativeHandles

/-!
# Sessions behind a connection pool

Every native handle has a session with the database, which may be within a
transaction.  `bozo::transaction` owns the connection that it was begun on and
does nothing when it is destroyed, so that a transaction may be left open by
whoever drops it.  The session of a handle changes only by what is executed
through an object that owns the handle, or because the connection is lost.
-/

namespace Bozo.Impl

open Bozo.Resource
open Bozo.Transition
open Ledger (owned)

/-- Who owns the handles, the status of every handle, and what its session
does while the status is `CONNECTION_OK`. -/
structure Sessions where
  handles : Handles
  status : Nat → ConnStatus
  block : Nat → TransactionStatus

/-- What happens to the handles and to their sessions. -/
inductive SessionEvent
  | handled (event : HandleEvent)
  -- `BEGIN`, `COMMIT`, `ROLLBACK` or any other query.
  | executed (handle : Nat) (block : TransactionStatus)
  | established (handle : Nat)
  | lost (handle : Nat)

namespace Sessions

def empty : Sessions where
  handles := .empty
  status := fun _ => .establishing
  block := fun _ => .idle

/-- `get_transaction_status`.  `PQtransactionStatus` is unknown unless the
status is `CONNECTION_OK`. -/
def transactionStatus (s : Sessions) (handle : Nat) : TransactionStatus :=
  if s.status handle = .ok then s.block handle else .unknown

/-- The handles through which something may be executed. -/
def accessible (s : Sessions) : List Nat :=
  s.handles.connections.filterMap Connection.handle ++ s.handles.released ++
    s.handles.inUse.filterMap PooledConnection.native

/-- The pool finds the status of the session.  A null pointer has none. -/
def found (s : Sessions) : HandleEvent → HandleEvent
  | .got (some position) _ fd registered =>
      let native := s.handles.recycled[position]?.join
      .got (some position) (native.elim .bad s.status) fd registered
  | .dropped position _ _ =>
      let native := s.handles.inUse[position]?.bind PooledConnection.native
      .dropped position (native.elim .bad s.status) (native.elim .unknown s.transactionStatus)
  | event => event

/-- The statuses after an operation.  A new handle has the status with which
`PQconnectStart` returns it. -/
def started (s : Sessions) : HandleEvent → Nat → ConnStatus
  | .performed _ (some status) _ _ =>
      Function.update s.status s.handles.native.handles.acquired status
  | _ => s.status

/-- What happens next; `none` means that it cannot happen. -/
def step (s : Sessions) : SessionEvent → Option Sessions
  | .handled event =>
      (s.handles.step (s.found event)).map fun handles =>
        { s with handles := handles, status := s.started event }
  | .executed handle block =>
      if handle ∈ s.accessible then
        some { s with block := Function.update s.block handle block }
      else
        none
  | .established handle =>
      if s.status handle = .establishing then
        some { s with
          status := Function.update s.status handle .ok
          block := Function.update s.block handle .idle }
      else
        none
  | .lost handle => some { s with status := Function.update s.status handle .bad }

/-- The handle is bad, or its session is outside of transactions. -/
def Settled (s : Sessions) (handle : Nat) : Prop :=
  s.status handle = .bad ∨ s.status handle = .ok ∧ s.block handle = .idle

/-- A connection for which no stream can be registered goes back to the pool
without a check.  This happens only to one whose handle is bad or whose session
is established and outside of transactions: not to one that is still being
established, within a transaction or executing a query. -/
def Allowed (s : Sessions) : SessionEvent → Prop
  | .handled (.connected _ connection fd registered) =>
      fd = -1 ∨ registered = true ∨
        ∀ conn handle, s.handles.connections[connection]? = some conn →
          conn.handle = some handle → s.Settled handle
  | _ => True

end Sessions

/-! ## What comes to the pool -/

namespace Handles

variable {s next : Handles} {handle : Nat}

theorem recycled_deliver {native : Option Nat} {fd : Int} {registered : Bool}
    (member : some handle ∈ (s.deliver native fd registered).recycled) :
    some handle ∈ s.recycled ∨ native = some handle ∧ fd ≠ -1 ∧ registered = false := by
  unfold deliver at member
  split at member
  · exact .inl member
  · rename_i refused
    rcases List.mem_append.mp member with before | here
    · exact .inl before
    · cases List.mem_singleton.mp here
      unfold PooledConnection.create at refused
      split at refused
      · cases refused
      · split at refused
        · cases refused
        · split at refused
          · cases refused
          · rename_i valid unregistered
            exact .inr ⟨rfl, valid, Bool.eq_false_iff.mpr unregistered⟩

theorem connecting_deliver (s : Handles) (native : Option Nat) (fd : Int) (registered : Bool) :
    (s.deliver native fd registered).connecting = s.connecting := by
  unfold deliver
  split <;> rfl

/-- A handle is put back because its request was refused, because it was
dropped in order, or because no stream could be registered for it. -/
theorem recycled_step {event : HandleEvent} (taken : s.step event = some next)
    (member : some handle ∈ next.recycled) :
    some handle ∈ s.recycled ∨ some (some handle) ∈ s.connecting ∨
      (∃ position, event = .dropped position .ok .idle ∧
        s.inUse[position]?.bind PooledConnection.native = some handle) ∨
      ∃ position connection fd conn, event = .connected position connection fd false ∧ fd ≠ -1 ∧
        s.connections[connection]? = some conn ∧ conn.handle = some handle := by
  cases event with
  | created | moved _ =>
      cases taken
      exact .inl member
  | performed position start fd registered | closed position | destroyed position
  | released position =>
      rcases Option.map_eq_some_iff.mp taken with ⟨conn, here, rfl⟩
      exact .inl member
  | assigned position released fd registered =>
      rcases Option.bind_eq_some_iff.mp taken with ⟨conn, here, rest⟩
      rcases Option.map_eq_some_iff.mp rest with ⟨given, there, rfl⟩
      exact .inl member
  | discarded released =>
      rcases Option.map_eq_some_iff.mp taken with ⟨given, here, rfl⟩
      exact .inl member
  | got given status fd registered =>
      cases given with
      | none =>
          cases taken
          exact .inl member
      | some position =>
          rcases Option.map_eq_some_iff.mp taken with ⟨native, here, rfl⟩
          unfold reuse at member
          split at member
          · exact .inl (List.mem_of_mem_eraseIdx member)
          · rcases recycled_deliver member with before | ⟨rfl, _⟩
            · exact .inl (List.mem_of_mem_eraseIdx before)
            · exact .inl (List.mem_of_getElem? here)
  | connected position connection fd registered =>
      rcases Option.bind_eq_some_iff.mp taken with ⟨given, here, rest⟩
      rcases Option.map_eq_some_iff.mp rest with ⟨conn, there, rfl⟩
      rcases recycled_deliver member with before | ⟨owns, valid, rfl⟩
      · exact .inl before
      · exact .inr (.inr (.inr ⟨position, connection, fd, conn, rfl, valid, there, owns⟩))
  | refused position =>
      rcases Option.map_eq_some_iff.mp taken with ⟨given, here, rfl⟩
      rcases List.mem_append.mp member with before | back
      · exact .inl before
      · rw [Option.mem_toList.mp back] at here
        exact .inr (.inl (List.mem_of_getElem? here))
  | closedInUse position =>
      rcases Option.map_eq_some_iff.mp taken with ⟨conn, here, rfl⟩
      exact .inl member
  | dropped position status transactionStatus =>
      rcases Option.map_eq_some_iff.mp taken with ⟨conn, here, rfl⟩
      simp only [drop] at member
      split at member
      · exact .inl member
      · rename_i healthy
        rcases List.mem_append.mp member with before | back
        · exact .inl before
        · have owns : conn.native = some handle := (List.mem_singleton.mp back).symm
          simp only [owns, connectionStatusOk, Option.map_some, Option.any_some, Bool.or_eq_true,
            Bool.not_eq_true', decide_eq_false_iff_not, decide_eq_true_eq, not_or, not_not] at healthy
          rcases healthy with ⟨rfl, rfl⟩
          refine .inr (.inr (.inl ⟨position, rfl, ?_⟩))
          rw [here]
          exact owns
  | expired position =>
      rcases Option.map_eq_some_iff.mp taken with ⟨native, here, rfl⟩
      exact .inl (List.mem_of_mem_eraseIdx member)

/-- Another attempt is made for a handle that is bad. -/
theorem connecting_step {event : HandleEvent} (taken : s.step event = some next)
    (member : some (some handle) ∈ next.connecting) :
    some (some handle) ∈ s.connecting ∨
      ∃ position fd registered, event = .got (some position) .bad fd registered ∧
        s.recycled[position]? = some (some handle) := by
  cases event with
  | created | moved _ =>
      cases taken
      exact .inl member
  | performed position start fd registered | closed position | destroyed position
  | released position | discarded released | closedInUse position | expired position =>
      rcases Option.map_eq_some_iff.mp taken with ⟨conn, here, rfl⟩
      exact .inl member
  | assigned position released fd registered =>
      rcases Option.bind_eq_some_iff.mp taken with ⟨conn, here, rest⟩
      rcases Option.map_eq_some_iff.mp rest with ⟨given, there, rfl⟩
      exact .inl member
  | got given status fd registered =>
      cases given with
      | none =>
          cases taken
          rcases List.mem_append.mp member with before | here
          · exact .inl before
          · cases List.mem_singleton.mp here
      | some position =>
          rcases Option.map_eq_some_iff.mp taken with ⟨native, here, rfl⟩
          unfold reuse at member
          split at member
          · rename_i bad
            rcases List.mem_append.mp member with before | there
            · exact .inl before
            · cases List.mem_singleton.mp there
              have same : status = .bad := by simpa [connectionStatusBad] using bad
              rw [same]
              exact .inr ⟨position, fd, registered, rfl, here⟩
          · rw [connecting_deliver] at member
            exact .inl member
  | connected position connection fd registered =>
      rcases Option.bind_eq_some_iff.mp taken with ⟨given, here, rest⟩
      rcases Option.map_eq_some_iff.mp rest with ⟨conn, there, rfl⟩
      simp only [connecting_deliver] at member
      exact .inl (List.mem_of_mem_eraseIdx member)
  | refused position =>
      rcases Option.map_eq_some_iff.mp taken with ⟨given, here, rfl⟩
      exact .inl (List.mem_of_mem_eraseIdx member)
  | dropped position status transactionStatus =>
      rcases Option.map_eq_some_iff.mp taken with ⟨conn, here, rfl⟩
      simp only [drop] at member
      split at member <;> exact .inl member

end Handles

/-! ## What the pool keeps -/

namespace Sessions

variable {s next : Sessions} {handle : Nat}

/-- What is owned by the pool. -/
def kept (s : Sessions) : Multiset Nat :=
  total owned s.handles.recycled + total (fun handle => owned handle.join) s.handles.connecting

/-- What is owned by the connections and the user. -/
def used (s : Sessions) : Multiset Nat :=
  total (fun conn => owned conn.handle) s.handles.connections +
    total (fun handle => owned (some handle)) s.handles.released +
    total (fun conn => owned conn.native) s.handles.inUse

theorem held_eq (s : Sessions) : s.handles.held = s.used + s.kept := by
  simp only [Handles.held, used, kept]
  abel

theorem mem_owned_iff {native : Option Nat} : handle ∈ owned native ↔ native = some handle := by
  cases native <;> simp [eq_comm]

theorem mem_kept_of_recycled (member : some handle ∈ s.handles.recycled) : handle ∈ s.kept :=
  Multiset.mem_add.mpr (.inl (mem_total.mpr ⟨some handle, member, mem_owned_iff.mpr rfl⟩))

theorem mem_kept_of_connecting (member : some (some handle) ∈ s.handles.connecting) :
    handle ∈ s.kept :=
  Multiset.mem_add.mpr (.inr (mem_total.mpr ⟨some (some handle), member, mem_owned_iff.mpr rfl⟩))

theorem mem_used_of_accessible (accessible : handle ∈ s.accessible) : handle ∈ s.used := by
  simp only [Sessions.accessible, List.mem_append, List.mem_filterMap] at accessible
  simp only [used, Multiset.mem_add, mem_total, mem_owned_iff]
  rcases accessible with (⟨conn, member, owns⟩ | released) | ⟨conn, member, owns⟩
  · exact .inl (.inl ⟨conn, member, owns⟩)
  · exact .inl (.inr ⟨handle, released, rfl⟩)
  · exact .inr ⟨conn, member, owns⟩

/-- Nothing is executed through a handle that the pool keeps. -/
theorem ne_of_accessible {other : Nat} (sound : s.handles.Sound)
    (accessible : handle ∈ s.accessible) (kept : other ∈ s.kept) : other ≠ handle := by
  have accounts := sound.accounts
  rw [held_eq] at accounts
  rintro rfl
  exact accounts.apart (mem_used_of_accessible accessible) kept

/-- A handle that the pool keeps is not the next one. -/
theorem ne_acquired (sound : s.handles.Sound) (kept : handle ∈ s.kept) :
    handle ≠ s.handles.native.handles.acquired := by
  have member : handle ∈ s.handles.held := by
    rw [held_eq]
    exact Multiset.mem_add.mpr (.inr kept)
  exact (sound.accounts.lt member).ne

theorem started_of_ne {event : HandleEvent} (other : handle ≠ s.handles.native.handles.acquired) :
    s.started event handle = s.status handle := by
  unfold started
  split
  · exact Function.update_of_ne other _ _
  · rfl

/-- The handles that were put back are settled, and those for which another
attempt is made are bad. -/
structure Sound (s : Sessions) : Prop where
  handles : s.handles.Sound
  recycled : ∀ handle, some handle ∈ s.handles.recycled → s.Settled handle
  connecting : ∀ handle, some (some handle) ∈ s.handles.connecting → s.status handle = .bad

theorem Sound.empty : Sessions.empty.Sound := by
  refine ⟨.empty, ?_, ?_⟩ <;> intro handle member <;> cases member

/-- Sessions of handles that the pool does not keep may change. -/
theorem Sound.keeps (sound : s.Sound) {status : Nat → ConnStatus} {block : Nat → TransactionStatus}
    (settled : ∀ handle ∈ s.kept, s.Settled handle →
      { s with status := status, block := block }.Settled handle)
    (bad : ∀ handle ∈ s.kept, s.status handle = .bad → status handle = .bad) :
    { s with status := status, block := block }.Sound :=
  ⟨sound.handles,
    fun handle member => settled handle (mem_kept_of_recycled member) (sound.recycled handle member),
    fun handle member => bad handle (mem_kept_of_connecting member) (sound.connecting handle member)⟩

theorem settled_started {event : HandleEvent} {handles : Handles}
    (other : handle ≠ s.handles.native.handles.acquired) :
    { s with handles := handles, status := s.started event }.Settled handle ↔ s.Settled handle := by
  simp only [Settled, started_of_ne other]

/-- The pool finds `CONNECTION_OK` and an idle session. -/
theorem found_dropped {event : HandleEvent} {position : Nat}
    (same : s.found event = .dropped position .ok .idle)
    (owns : s.handles.inUse[position]?.bind PooledConnection.native = some handle) :
    s.started event = s.status ∧ s.Settled handle := by
  cases event with
  | dropped here status transactionStatus =>
      simp only [found, HandleEvent.dropped.injEq] at same
      rcases same with ⟨rfl, ok, idle⟩
      rw [owns, Option.elim_some] at ok idle
      refine ⟨rfl, .inr ⟨ok, ?_⟩⟩
      rwa [Sessions.transactionStatus, if_pos ok] at idle
  | got given status fd registered => cases given <;> cases same
  | _ => cases same

theorem found_connected {event : HandleEvent} {position connection : Nat} {fd : Int}
    {registered : Bool} (same : s.found event = .connected position connection fd registered) :
    event = .connected position connection fd registered := by
  cases event with
  | connected => exact same
  | got given status fd registered => cases given <;> cases same
  | _ => cases same

theorem found_got {event : HandleEvent} {position : Nat} {status : ConnStatus} {fd : Int}
    {registered : Bool} (same : s.found event = .got (some position) status fd registered)
    (given : s.handles.recycled[position]? = some (some handle)) :
    s.started event = s.status ∧ s.status handle = status := by
  cases event with
  | got here before number taken =>
      cases here with
      | none => cases same
      | some here =>
          simp only [found, HandleEvent.got.injEq, Option.some.injEq] at same
          rcases same with ⟨rfl, finds, _⟩
          rw [given] at finds
          exact ⟨rfl, finds⟩
  | _ => cases same

theorem Sound.handled {event : HandleEvent} {handles : Handles} (sound : s.Sound)
    (allowed : s.Allowed (.handled event)) (taken : s.handles.step (s.found event) = some handles) :
    { s with handles := handles, status := s.started event }.Sound := by
  refine ⟨sound.handles.step taken, ?_, ?_⟩
  · intro handle member
    rcases Handles.recycled_step taken member with
      before | waiting | ⟨position, same, owns⟩ |
        ⟨position, connection, fd, conn, same, valid, there, owns⟩
    · have other := ne_acquired sound.handles (mem_kept_of_recycled before)
      exact (settled_started other).mpr (sound.recycled handle before)
    · have other := ne_acquired sound.handles (mem_kept_of_connecting waiting)
      exact (settled_started other).mpr (.inl (sound.connecting handle waiting))
    · rcases found_dropped same owns with ⟨unchanged, settled⟩
      rw [unchanged]
      exact settled
    · cases found_connected same
      rcases allowed with invalid | registered | settled
      · exact absurd invalid valid
      · cases registered
      · exact settled conn handle there owns
  · intro handle member
    rcases Handles.connecting_step taken member with before | ⟨position, fd, registered, same, given⟩
    · have other := ne_acquired sound.handles (mem_kept_of_connecting before)
      exact (started_of_ne other).trans (sound.connecting handle before)
    · rcases found_got same given with ⟨unchanged, bad⟩
      rw [unchanged]
      exact bad

theorem Sound.step {event : SessionEvent} (sound : s.Sound) (allowed : s.Allowed event)
    (taken : s.step event = some next) : next.Sound := by
  cases event with
  | handled event =>
      rcases Option.map_eq_some_iff.mp taken with ⟨handles, moved, rfl⟩
      exact sound.handled allowed moved
  | executed handle block =>
      simp only [Sessions.step] at taken
      split at taken
      · rename_i accessible
        cases taken
        apply sound.keeps
        · intro other kept settled
          have ne := ne_of_accessible sound.handles accessible kept
          simpa [Settled, Function.update_of_ne ne] using settled
        · exact fun _ _ bad => bad
      · cases taken
  | established handle =>
      simp only [Sessions.step] at taken
      split at taken
      · rename_i establishing
        cases taken
        have ne_of : ∀ other, s.status other ≠ .establishing → other ≠ handle := by
          rintro other status rfl
          exact status establishing
        apply sound.keeps
        · intro other kept settled
          have ne := ne_of other (by rcases settled with bad | ⟨ok, _⟩ <;> simp [*])
          simpa [Settled, Function.update_of_ne ne] using settled
        · intro other kept bad
          have ne := ne_of other (by simp [bad])
          simpa [Function.update_of_ne ne] using bad
      · cases taken
  | lost handle =>
      cases taken
      apply sound.keeps
      · intro other kept settled
        by_cases same : other = handle
        · subst same
          exact .inl (Function.update_self _ _ _)
        · simpa [Settled, Function.update_of_ne same] using settled
      · intro other kept bad
        by_cases same : other = handle
        · subst same
          exact Function.update_self _ _ _
        · simpa [Function.update_of_ne same] using bad

theorem sound_of_reachable (reachable : Reachable Sessions.step Allowed Sessions.empty s) :
    s.Sound :=
  reachable.invariant .empty fun _ _ _ sound allowed taken => sound.step allowed taken

end Sessions

/-- In every run, whatever is executed through the connections and whoever
drops them within a transaction: a representation that the pool gives to a
request again is owned by nobody else, and it is bad and gets replaced, or its
session is established and outside of transactions. -/
theorem reused_outside_transactions (s next : Sessions)
    (reachable : Reachable Sessions.step Sessions.Allowed Sessions.empty s) (position handle : Nat)
    (given : s.handles.recycled[position]? = some (some handle)) (status : ConnStatus) (fd : Int)
    (registered : Bool)
    (taken : s.step (.handled (.got (some position) status fd registered)) = some next) :
    next.handles.held.count handle = 1 ∧
      (s.status handle = .bad ∧
          next.handles.connecting = s.handles.connecting ++ [some (some handle)] ∧
          next.handles.inUse = s.handles.inUse ∨
        s.status handle = .ok ∧ s.transactionStatus handle = .idle ∧
          next.handles.connecting = s.handles.connecting) := by
  have sound := Sessions.sound_of_reachable reachable
  have settled := sound.recycled handle (List.mem_of_getElem? given)
  have allowed : s.Allowed (.handled (.got (some position) status fd registered)) := trivial
  have after : next.Sound := sound.step allowed taken
  rcases Option.map_eq_some_iff.mp taken with ⟨handles, moved, rfl⟩
  simp only [Sessions.found, given, Option.join_some, Option.elim_some, Handles.step,
    Option.map_some, Option.some.injEq] at moved
  constructor
  · apply after.handles.accounts.count_eq_one
    show handle ∈ handles.held
    rw [← moved, Handles.held_reuse]
    exact Multiset.mem_add.mpr (.inl (Sessions.mem_owned_iff.mpr rfl))
  · simp only [Handles.reuse, connectionStatusBad, Option.map_some, Option.all_some,
      decide_eq_true_eq] at moved
    split at moved
    · rename_i bad
      cases moved
      exact .inl ⟨bad, rfl, rfl⟩
    · rename_i notBad
      rcases settled with bad | ⟨ok, idle⟩
      · exact absurd bad notBad
      · refine .inr ⟨ok, ?_, ?_⟩
        · rwa [Sessions.transactionStatus, if_pos ok]
        · rw [← moved]
          exact Handles.connecting_deliver _ _ _ _

/-- No stream is registered for a connection that is still being established, and
the next request is given its handle as it is. -/
example : (run Sessions.step Sessions.empty [.handled .created,
    .handled (.performed 0 (some .establishing) 7 true), .handled (.got none .ok 7 true),
    .handled (.connected 0 0 7 false), .handled (.got (some 0) .ok 7 true)]).map
      (fun s => (s.handles.inUse.map PooledConnection.native, s.status 0)) =
    some ([some 0], .establishing) := by
  rfl

/-- Two connections of a pool, one of which is dropped after a transaction and
the other one within a transaction. -/
def committedAndAbandoned : List SessionEvent :=
  [.handled .created, .handled (.performed 0 (some .establishing) 7 true), .established 0,
    .handled (.got none .ok 7 true), .handled (.connected 0 0 7 true),
    .handled (.performed 0 (some .establishing) 8 true), .established 1,
    .handled (.got none .ok 8 true), .handled (.connected 0 0 8 true),
    .executed 0 .transaction, .executed 1 .transaction, .executed 0 .idle,
    .handled (.dropped 0 .ok .idle), .handled (.dropped 0 .ok .idle)]

theorem reused_outside_transactions_committed :
    ∃ s, Reachable Sessions.step Sessions.Allowed Sessions.empty s ∧
      s.handles.recycled = [some 0] ∧ s.handles.native.handles.finished = [1] ∧
      s.transactionStatus 0 = .idle := by
  obtain ⟨s, ran, recycled, finished, status, block⟩ :
      ∃ s, run Sessions.step Sessions.empty committedAndAbandoned = some s ∧
        s.handles.recycled = [some 0] ∧ s.handles.native.handles.finished = [1] ∧
        s.status 0 = .ok ∧ s.block 0 = .idle := ⟨_, rfl, rfl, rfl, rfl, rfl⟩
  have reachable : Reachable Sessions.step Sessions.Allowed Sessions.empty s := by
    apply reachable_of_run_of_allowed ran
    intro state event member
    simp only [committedAndAbandoned, List.mem_cons, List.not_mem_nil, or_false] at member
    rcases member with rfl | rfl | rfl | rfl | rfl | rfl | rfl | rfl | rfl | rfl | rfl | rfl | rfl | rfl <;>
      first | exact trivial | exact .inr (.inl rfl)
  have given : s.handles.recycled[0]? = some (some 0) := by rw [recycled]; rfl
  obtain ⟨next, taken⟩ : ∃ next, s.step (.handled (.got (some 0) .ok 7 true)) = some next := by
    simp [Sessions.step, Sessions.found, Handles.step, recycled]
  rcases reused_outside_transactions s next reachable 0 0 given .ok 7 true taken with
    ⟨_, ⟨bad, _⟩ | ⟨_, idle, _⟩⟩
  · rw [status] at bad
    cases bad
  · exact ⟨s, reachable, recycled, finished, idle⟩

end Bozo.Impl
