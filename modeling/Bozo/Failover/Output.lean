import Bozo.Failover.Retry
import Bozo.Failover.RoleBased
import Bozo.Impl.Deadline
import Bozo.Io.Results

/-!
# The output of a request under a failover strategy

Every try of a request has its own copy of the insert iterator that the request
was given, and all of them insert into the same container.  What a try has
inserted before it fails stays there.
-/

namespace Bozo.Failover

open Bozo.Impl
open Bozo.Io

universe u v

/-- How one try of a request goes, up to the call of its handler. -/
inductive RequestTry (κ : Type v)
  -- There is no connection.
  | unconnected (ec : ErrorCode) (isError : ec.failed = true) (conn : Option κ)
  -- The request comes to its end without a result to be processed.
  | unanswered (ec : ErrorCode) (conn : Option κ)
  -- The rows of a result are processed; the timer's handler may have been first.
  | answered (map : OidMap) (rows : List Row) (late : Bool) (conn : Option κ)

namespace RequestTry

variable {κ : Type v} (o : RowOut)

/-- What the handler of the try is invoked with.  `process_and_done` turns an
exception into an error; a deadline that was first replaces the code. -/
def outcome : RequestTry κ → Outcome κ
  | .unconnected ec _ conn => ⟨ec, conn⟩
  | .unanswered ec conn => ⟨ec, conn⟩
  | .answered map rows late conn =>
      let ec := match decodeError map o rows with
        | none => .success
        | some _ => Error.badResultProcess.code
      ⟨if late then timedOut else ec, conn⟩

/-- What the try does to the container. -/
def output (out : Inserter o.Val) (container : out.Container) : RequestTry κ → out.Container
  | .unconnected _ _ _ | .unanswered _ _ => container
  | .answered map rows _ _ => (recvResult map o out rows container).1

/-- The values that the try inserts. -/
def inserted : RequestTry κ → List o.Val
  | .unconnected _ _ _ | .unanswered _ _ => []
  | .answered map rows _ _ => decoded map o rows

/-- The first row of the result of the try is decoded. -/
def Yields : RequestTry κ → Prop
  | .unconnected _ _ _ | .unanswered _ _ => False
  | .answered map rows _ _ =>
      ∃ row value, rows.head? = some row ∧ recvRow map o row o.default = .ok value

/-- The values are those of the rows of the result; there are none without a
result. -/
def Decodes (values : List o.Val) : RequestTry κ → Prop
  | .unconnected _ _ _ | .unanswered _ _ => values = []
  | .answered map rows _ _ => Decode map o rows values

variable {o}

theorem output_eq (out : Inserter o.Val) (container : out.Container) (t : RequestTry κ) :
    t.output o out container = out.insertAll container (t.inserted o) := by
  cases t with
  | unconnected ec isError conn => rfl
  | unanswered ec conn => rfl
  | answered map rows late conn => rw [output, recvResult_eq, inserted]

theorem inserted_ne_nil_iff (t : RequestTry κ) : t.inserted o ≠ [] ↔ t.Yields o := by
  cases t with
  | unconnected ec isError conn => exact iff_of_false (fun some => some rfl) id
  | unanswered ec conn => exact iff_of_false (fun some => some rfl) id
  | answered map rows late conn => exact decoded_ne_nil_iff rows

/-- A try that succeeds inserts the rows of its result. -/
theorem decodes_iff_of_succeeds {t : RequestTry κ} (succeeds : (t.outcome o).ec.failed = false)
    (values : List o.Val) : t.Decodes o values ↔ values = t.inserted o := by
  cases t with
  | unconnected ec isError conn => exact Iff.rfl
  | unanswered ec conn => exact Iff.rfl
  | answered map rows late conn =>
      apply decode_iff_of_decodeError
      cases late with
      | true => cases succeeds
      | false =>
          simp only [outcome] at succeeds
          cases error : decodeError map o rows with
          | none => rfl
          | some e =>
              rw [error] at succeeds
              cases succeeds

end RequestTry

/-! ## All tries -/

section Runs

variable {κ : Type v} {o : RowOut} (out : Inserter o.Val) (tries : Nat → RequestTry κ)

/-- The container after the first `k` tries. -/
def outputs (container : out.Container) (k : Nat) : out.Container :=
  (List.range' 1 k).foldl (fun container i => (tries i).output o out container) container

/-- The tries insert one after another. -/
theorem outputs_eq (container : out.Container) (k : Nat) :
    outputs out tries container k =
      out.insertAll container ((List.range' 1 k).flatMap fun i => (tries i).inserted o) := by
  induction k with
  | zero => rfl
  | succ k ih =>
      rw [outputs, List.range'_concat, List.foldl_append, List.flatMap_append,
        Inserter.insertAll_append, ← ih]
      simp only [List.foldl_cons, List.foldl_nil, List.flatMap_singleton]
      exact RequestTry.output_eq out _ _

/-- What the container has gained is what the last try inserts, exactly when no
try before has inserted anything. -/
theorem outputs_eq_last_iff (container : out.Container) {k : Nat} (positive : 1 ≤ k) :
    outputs out tries container k = out.insertAll container ((tries k).inserted o) ↔
      ∀ i, 1 ≤ i → i < k → ¬ (tries i).Yields o := by
  have last : List.range' 1 k = List.range' 1 (k - 1) ++ [k] := by
    have concat := List.range'_1_concat (s := 1) (n := k - 1)
    have next : k - 1 + 1 = k := Nat.sub_add_cancel positive
    rw [Nat.add_comm 1 (k - 1), next] at concat
    exact concat
  rw [outputs_eq, last, List.flatMap_append, List.flatMap_singleton,
    Inserter.insertAll_append_eq_iff, List.flatMap_eq_nil_iff]
  constructor
  · intro nothing i first before yields
    have member : i ∈ List.range' 1 (k - 1) := List.mem_range'_1.mpr (by omega)
    exact (tries i).inserted_ne_nil_iff.mpr yields (nothing i member)
  · intro nothing i member
    have range := List.mem_range'_1.mp member
    by_contra some
    exact nothing i range.1 (by omega) ((tries i).inserted_ne_nil_iff.mp some)

end Runs

/-- When a request succeeds under a failover strategy, its output container has
gained exactly the rows of the last try, in order, if and only if no try before
the last one had a result whose first row could be decoded. -/
theorem output_of_last_try_iff {τ : Type u} {κ : Type v} (s : Strategy τ κ) (first : τ)
    (inline : Nat → Bool) (o : RowOut) (out : Inserter o.Val) (container : out.Container)
    (tries : Nat → RequestTry κ) (ec : ErrorCode) (conn : Option κ) (k : Nat)
    (initiated : ((s.run (fun i => (tries i).outcome o) inline first).filterMap
      Action.initiated?).length = k)
    (handled : (ec, conn) ∈
      (s.run (fun i => (tries i).outcome o) inline first).filterMap Action.handled?)
    (succeeds : ec.failed = false) :
    (∃ values, (tries k).Decodes o values ∧
        outputs out tries container k = out.insertAll container values) ↔
      ∀ i, 1 ≤ i → i < k → ¬ (tries i).Yields o := by
  rw [Strategy.initiated_run, List.length_map] at initiated
  rw [Strategy.handled_run, initiated] at handled
  cases List.mem_singleton.mp handled
  have positive : 1 ≤ k := by
    rw [← initiated]
    exact List.length_pos_iff.mpr (s.attempts_ne_nil _ first 1)
  rw [← outputs_eq_last_iff out tries container positive]
  constructor
  · rintro ⟨values, decodes, gained⟩
    rw [gained, (RequestTry.decodes_iff_of_succeeds succeeds values).mp decodes]
  · intro gained
    exact ⟨_, (RequestTry.decodes_iff_of_succeeds succeeds _).mpr rfl, gained⟩

/-- A request for numbers. -/
def numbers : RowOut :=
  .value (.plain (.scalar .int4))

def oneRow : Row :=
  [⟨"n", 23, some [0, 0, 0, 1]⟩]

def nullRow : Row :=
  [⟨"n", 23, none⟩]

/-- The connection is lost at first. -/
def lostThenOne : Nat → RequestTry Unit
  | 1 => .unanswered operationAborted none
  | _ => .answered (fun _ => 0) [oneRow] false (some ())

/-- The first result has a row that cannot be decoded. -/
def nullThenOne : Nat → RequestTry Unit
  | 1 => .answered (fun _ => 0) [oneRow, nullRow] false (some ())
  | _ => .answered (fun _ => 0) [oneRow] false (some ())

/-- Two tries after any error. -/
def twice : Strategy BasicTry Unit :=
  retry (γ := Unit) (fun _ _ => false) ⟨none, none⟩

/-- If the first try fails and the second one succeeds, there are two. -/
theorem attempts_twice (outcomes : Nat → Outcome Unit) (fails : (outcomes 1).ec.failed = true)
    (succeeds : (outcomes 2).ec.failed = false) :
    twice.attempts outcomes ⟨2⟩ 1 = [(⟨2⟩, outcomes 1), (⟨1⟩, outcomes 2)] := by
  have again : twice.next ⟨2⟩ (outcomes 1) = some ⟨1⟩ := by
    rw [Strategy.next, if_pos fails]
    rfl
  have last : twice.next ⟨1⟩ (outcomes 2) = none := by
    rw [Strategy.next, if_neg (by rw [succeeds]; exact Bool.false_ne_true)]
  rw [Strategy.attempts_of_next again, Strategy.attempts_of_last last]

theorem output_of_last_try_lostThenOne :
    ∃ values, (lostThenOne 2).Decodes numbers values ∧
      outputs (o := numbers) (.back _) lostThenOne [] 2 =
        (Inserter.back numbers.Val).insertAll [] values := by
  have ran := attempts_twice (fun i => (lostThenOne i).outcome numbers) rfl rfl
  refine (output_of_last_try_iff twice ⟨2⟩ (fun _ => false) numbers (.back _) [] lostThenOne
    .success (some ()) 2 ?_ ?_ rfl).mpr ?_
  · rw [Strategy.initiated_run, ran]
    rfl
  · rw [Strategy.handled_run, ran]
    exact List.mem_singleton.mpr rfl
  · intro i first before yields
    have only : i = 1 := by omega
    subst only
    exact yields

theorem output_of_earlier_try_kept :
    ((twice.run (fun i => (nullThenOne i).outcome numbers) (fun _ => false) ⟨2⟩).filterMap
        Action.handled? = [(.success, some ())]) ∧
      ((twice.run (fun i => (nullThenOne i).outcome numbers) (fun _ => false) ⟨2⟩).filterMap
        Action.initiated?).length = 2 ∧
      ¬ ∃ values, (nullThenOne 2).Decodes numbers values ∧
        outputs (o := numbers) (.back _) nullThenOne [] 2 =
          (Inserter.back numbers.Val).insertAll [] values := by
  have ran := attempts_twice (fun i => (nullThenOne i).outcome numbers) rfl rfl
  refine ⟨?_, ?_, ?_⟩
  · rw [Strategy.handled_run, ran]
    rfl
  · rw [Strategy.initiated_run, ran]
    rfl
  · rintro ⟨values, decodes, gained⟩
    have single : [oneRow].length = values.length := List.Forall₂.length_eq decodes
    have sizes := congrArg List.length gained
    have both : (outputs (o := numbers) (.back _) nullThenOne [] 2).length = 2 := rfl
    rw [both] at sizes
    have inserted := (Inserter.back numbers.Val).size_insertAll [] values
    rw [← single] at inserted
    exact absurd (sizes.trans inserted) (by decide)

end Bozo.Failover
