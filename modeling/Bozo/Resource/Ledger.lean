import Mathlib.Algebra.BigOperators.Group.List.Basic
import Mathlib.Algebra.BigOperators.Group.Multiset.Basic
import Mathlib.Data.Multiset.Range

/-!
# Resources that are acquired and given up

Resources are numbered in the order in which they are acquired.  A ledger
records how many there are and which were given up, in order; the holders of
the others account for it when every resource is with one holder, or was given
up once.

The rules keep the holders that an operation does not touch in a frame, so that
an operation on one holder needs to know nothing about the rest.
-/

namespace Bozo.Resource

universe u v

/-! ## What a list of holders holds -/

section

variable {α : Type u} {M : Type v} [AddCommMonoid M] (f : α → M)

/-- What all members of a list hold together. -/
def total (xs : List α) : M :=
  (xs.map f).sum

@[simp] theorem total_nil : total f [] = 0 :=
  rfl

@[simp] theorem total_singleton (x : α) : total f [x] = f x := by
  simp [total]

@[simp] theorem total_append (xs ys : List α) : total f (xs ++ ys) = total f xs + total f ys := by
  simp [total]

variable {f} {xs : List α} {position : Nat} {x : α}

/-- What one member holds is apart from what the others hold. -/
theorem total_eraseIdx (here : xs[position]? = some x) :
    f x + total f (xs.eraseIdx position) = total f xs := by
  rcases List.getElem?_eq_some_iff.mp here with ⟨within, rfl⟩
  have within' : position < (xs.map f).length := by rwa [List.length_map]
  have apart := List.CommMonoid.add_sum_eraseIdx (l := xs.map f) within'
  rwa [List.getElem_map, List.eraseIdx_map] at apart

theorem total_set (here : xs[position]? = some x) (y : α) :
    total f (xs.set position y) = f y + total f (xs.eraseIdx position) := by
  rcases List.getElem?_eq_some_iff.mp here with ⟨within, rfl⟩
  have here' : (xs.set position y)[position]? = some y := by simp [within]
  rw [← total_eraseIdx here', List.eraseIdx_set_eq]

theorem mem_total {ι : Type v} {g : α → Multiset ι} {resource : ι} :
    resource ∈ total g xs ↔ ∃ x ∈ xs, resource ∈ g x := by
  induction xs with
  | nil => simp
  | cons x xs ih =>
      have apart : total g (x :: xs) = g x + total g xs := by simp [total]
      rw [apart, Multiset.mem_add, ih, List.exists_mem_cons_iff]

end

/-! ## Ledgers -/

/-- How many resources were acquired, and which were given up. -/
structure Ledger where
  acquired : Nat
  finished : List Nat
  deriving DecidableEq, Repr

namespace Ledger

def empty : Ledger where
  acquired := 0
  finished := []

def acquire (l : Ledger) : Ledger :=
  { l with acquired := l.acquired + 1 }

def finish (l : Ledger) (given : Option Nat) : Ledger :=
  { l with finished := l.finished ++ given.toList }

/-- The resources that a pointer owns. -/
def owned (pointer : Option Nat) : Multiset Nat :=
  pointer.toList

@[simp] theorem owned_none : owned none = 0 :=
  rfl

@[simp] theorem owned_some (resource : Nat) : owned (some resource) = {resource} :=
  rfl

/-- Every resource is held once, or was given up once. -/
def Accounts (l : Ledger) (held : Multiset Nat) : Prop :=
  held + (l.finished : Multiset Nat) = Multiset.range l.acquired

variable {l : Ledger} {held rest : Multiset Nat}

theorem Accounts.empty : Ledger.empty.Accounts 0 :=
  rfl

/-- A new resource has a holder. -/
theorem Accounts.acquire (accounts : l.Accounts rest) :
    l.acquire.Accounts (owned (some l.acquired) + rest) := by
  unfold Accounts at accounts ⊢
  show owned (some l.acquired) + rest + (l.finished : Multiset Nat) = Multiset.range (l.acquired + 1)
  rw [Multiset.range_succ, ← accounts, owned_some, add_assoc, Multiset.singleton_add]

/-- A resource that its holder gives up is held by nobody. -/
theorem Accounts.finish {given : Option Nat} (accounts : l.Accounts (owned given + rest)) :
    (l.finish given).Accounts rest := by
  have moved : rest + ((l.finished : Multiset Nat) + owned given) =
      owned given + rest + (l.finished : Multiset Nat) := by
    rw [← add_assoc, add_comm, ← add_assoc]
  have kept : rest + ((l.finished : Multiset Nat) + owned given) = Multiset.range l.acquired :=
    moved.trans accounts
  exact kept

theorem Accounts.count (accounts : l.Accounts held) (resource : Nat) :
    held.count resource + l.finished.count resource = if resource < l.acquired then 1 else 0 := by
  have counted := congrArg (Multiset.count resource) accounts
  rw [Multiset.count_add, Multiset.coe_count] at counted
  rw [counted]
  split
  · exact Multiset.count_eq_one_of_mem (Multiset.nodup_range _) (Multiset.mem_range.mpr ‹_›)
  · exact Multiset.count_eq_zero_of_notMem fun member => ‹¬ _› (Multiset.mem_range.mp member)

theorem Accounts.lt {resource : Nat} (accounts : l.Accounts held) (holds : resource ∈ held) :
    resource < l.acquired := by
  have member : resource ∈ held + (l.finished : Multiset Nat) := Multiset.mem_add.mpr (.inl holds)
  rw [accounts] at member
  exact Multiset.mem_range.mp member

/-- What is held is held once. -/
theorem Accounts.count_eq_one {resource : Nat} (accounts : l.Accounts held)
    (holds : resource ∈ held) : held.count resource = 1 := by
  have counted := accounts.count resource
  rw [if_pos (accounts.lt holds)] at counted
  have positive := Multiset.count_pos.mpr holds
  omega

/-- Nothing is held by two holders. -/
theorem Accounts.apart {resource : Nat} (accounts : l.Accounts (held + rest))
    (holds : resource ∈ held) : resource ∉ rest := by
  have counted := accounts.count resource
  rw [Multiset.count_add] at counted
  have positive := Multiset.count_pos.mpr holds
  intro others
  have positive' := Multiset.count_pos.mpr others
  split at counted <;> omega

/-- What is held was not given up. -/
theorem Accounts.not_finished {resource : Nat} (accounts : l.Accounts held)
    (holds : resource ∈ held) : resource ∉ l.finished := by
  have counted := accounts.count resource
  have positive := Multiset.count_pos.mpr holds
  intro finished
  have positive' := List.count_pos_iff.mpr finished
  split at counted <;> omega

end Ledger

end Bozo.Resource
