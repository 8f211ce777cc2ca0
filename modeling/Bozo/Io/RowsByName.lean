import Bozo.Io.Rows
import Mathlib.Data.List.Nodup
import Mathlib.Data.List.Perm.Subperm

/-!
# Receiving a structure by the names of its members

The receive of a row by name checks the number of columns and looks every member
up.  With distinct member names that is enough: the columns found are all the
columns, each of them once, and the row may come in any order.
-/

namespace Bozo.Io

/-! ## Looking a column up -/

/-- A name is found exactly when a column bears it. -/
theorem Row.find_lt_iff (row : Row) (name : String) :
    row.find name < row.length ↔ name ∈ row.map Column.name := by
  unfold Row.find Row.fieldNumber
  cases found : row.findIdx? fun column => column.name == name with
  | none =>
      have absent := List.findIdx?_eq_none_iff.mp found
      simp only [if_true, Nat.lt_irrefl, false_iff, List.mem_map, not_exists, not_and]
      intro column member same
      simpa [same] using absent column member
  | some i =>
      rcases List.findIdx?_eq_some_iff_getElem.mp found with ⟨inside, named, -⟩
      have notEnd : ¬ (i : Int) = -1 := by omega
      simp only [if_neg notEnd, Int.toNat_natCast, inside, true_iff]
      exact List.mem_map.mpr ⟨row[i], List.getElem_mem inside, by simpa using named⟩

theorem Row.name_of_find {row : Row} {name : String} {column : Column}
    (found : row[row.find name]? = some column) : column.name = name := by
  unfold Row.find Row.fieldNumber at found
  cases position : row.findIdx? fun column => column.name == name with
  | none =>
      rw [position] at found
      simp at found
  | some i =>
      rcases List.findIdx?_eq_some_iff_getElem.mp position with ⟨inside, named, -⟩
      have notEnd : ¬ (i : Int) = -1 := by omega
      rw [position] at found
      simp only [if_neg notEnd, Int.toNat_natCast, List.getElem?_eq_getElem inside,
        Option.some.injEq] at found
      subst found
      simpa using named

theorem Row.exists_column {row : Row} {name : String} (member : name ∈ row.map Column.name) :
    ∃ column, row[row.find name]? = some column :=
  ⟨_, List.getElem?_eq_getElem ((row.find_lt_iff name).mpr member)⟩

/-- The columns of a row that bear given names, in the order of the names. -/
def Row.arrange (row : Row) (names : List String) : Row :=
  (names.map row.find).filterMap (row[·]?)

theorem Row.arrange_cons {row : Row} {name : String} {names : List String} {column : Column}
    (found : row[row.find name]? = some column) :
    row.arrange (name :: names) = column :: row.arrange names := by
  unfold Row.arrange
  rw [List.map_cons, List.filterMap_cons_some found]

theorem Row.names_arrange {row : Row} {names : List String}
    (all : ∀ name ∈ names, name ∈ row.map Column.name) :
    (row.arrange names).map Column.name = names := by
  induction names with
  | nil => rfl
  | cons name names ih =>
      rcases List.forall_mem_cons.mp all with ⟨here, others⟩
      rcases Row.exists_column here with ⟨column, found⟩
      rw [Row.arrange_cons found, List.map_cons, Row.name_of_find found, ih others]

/-- When the names of a row are distinct, a column is found by its name. -/
theorem Row.find_of_mem {row : Row} (distinct : (row.map Column.name).Nodup) {column : Column}
    (member : column ∈ row) : row[row.find column.name]? = some column := by
  rcases Row.exists_column (List.mem_map_of_mem member) with ⟨other, found⟩
  have same : other = column :=
    List.inj_on_of_nodup_map distinct (List.mem_of_getElem? found) member (Row.name_of_find found)
  rw [found, same]

/-! ## Receiving by name is receiving the arranged row -/

theorem Fields.Names.length_toList : {fields : Fields} → (names : fields.Names) →
    names.toList.length = fields.number
  | .nil, _ => rfl
  | .cons _ tail, names => congrArg Nat.succ (@length_toList tail names.2)

/-- A receive by name that succeeds has found every name. -/
theorem Fields.recvMembers_found (map : OidMap) (row : Row) : (fields : Fields) →
    (names : fields.Names) → (out result : fields.Val) →
    fields.recvMembers map row names out = .ok result →
      ∀ name ∈ names.toList, name ∈ row.map Column.name
  | .nil, _, _, _, _ => nofun
  | .cons head tail, names, out, result, received => by
      unfold Fields.recvMembers recvMember at received
      cases found : row[row.find names.1]? with
      | none =>
          rw [found] at received
          cases received
      | some column =>
          have here := (row.find_lt_iff names.1).mp (List.getElem?_eq_some_iff.mp found).1
          rw [found] at received
          cases first : recvValue map head column out.1 with
          | error e =>
              simp only [first] at received
              cases received
          | ok value =>
              simp only [first] at received
              cases others : tail.recvMembers map row names.2 out.2 with
              | error e =>
                  rw [others] at received
                  cases received
              | ok values =>
                  exact List.forall_mem_cons.mpr
                    ⟨here, tail.recvMembers_found map row names.2 out.2 values others⟩

/-- When every name is found, receiving by name is receiving the columns found
by position. -/
theorem Fields.recvMembers_eq (map : OidMap) (row : Row) : (fields : Fields) →
    (names : fields.Names) → (out : fields.Val) →
    (∀ name ∈ names.toList, name ∈ row.map Column.name) →
    (sameNumber : (row.arrange names.toList).length = fields.number) →
      fields.recvMembers map row names out =
        fields.recvColumns map (row.arrange names.toList) sameNumber out
  | .nil, _, _, _, _ => rfl
  | .cons head tail, names, out, all, sameNumber => by
      rcases List.forall_mem_cons.mp all with ⟨here, others⟩
      rcases Row.exists_column here with ⟨column, found⟩
      have arranged : row.arrange (names.1 :: names.2.toList) = column :: row.arrange names.2.toList :=
        Row.arrange_cons found
      have rest := tail.recvMembers_eq map row names.2 out.2 others
      simp only [Fields.recvMembers, recvMember, found, Fields.Names.toList, arranged,
        Fields.recvColumns]
      rw [rest]

/-! ## The columns found are all the columns -/

section Distinct

variable {row : Row} {names : List String} (distinct : names.Nodup)
  (all : ∀ name ∈ names, name ∈ row.map Column.name) (sameNumber : row.length = names.length)

include distinct all sameNumber

/-- As many distinct names as there are columns, all found, are the names of the
columns. -/
theorem Row.names_perm : (row.map Column.name).Perm names := by
  have inside : names.Subperm (row.map Column.name) := List.subperm_of_subset distinct all
  have noMore : (row.map Column.name).length ≤ names.length := by
    rw [List.length_map]
    exact Nat.le_of_eq sameNumber
  exact (inside.perm_of_length_le noMore).symm

/-- The positions found are all the positions, each of them once. -/
theorem Row.positions_perm : (names.map row.find).Perm (List.range row.length) := by
  have different : (names.map row.find).Nodup := by
    apply distinct.map_on
    intro name member name' member' same
    rcases Row.exists_column (all name member) with ⟨column, found⟩
    have foundToo : row[row.find name']? = some column := by rw [← same, found]
    exact (Row.name_of_find found).symm.trans (Row.name_of_find foundToo)
  have inside : (names.map row.find).Subperm (List.range row.length) := by
    apply List.subperm_of_subset different
    intro position member
    rcases List.mem_map.mp member with ⟨name, nameMember, rfl⟩
    exact List.mem_range.mpr ((row.find_lt_iff name).mpr (all name nameMember))
  have noMore : (List.range row.length).length ≤ (names.map row.find).length := by
    rw [List.length_range, List.length_map]
    exact Nat.le_of_eq sameNumber
  exact inside.perm_of_length_le noMore

/-- The arranged row does not depend on the order of the columns. -/
theorem Row.arrange_of_perm {other : Row} (same : other.Perm row) : other.arrange names = row.arrange names := by
  have named : (other.map Column.name).Nodup :=
    (((same.map Column.name).trans (Row.names_perm distinct all sameNumber)).nodup_iff).mpr distinct
  unfold Row.arrange
  rw [List.filterMap_map, List.filterMap_map]
  apply List.filterMap_congr
  intro name member
  rcases Row.exists_column (all name member) with ⟨column, found⟩
  have foundThere := Row.find_of_mem named (same.mem_iff.mpr (List.mem_of_getElem? found))
  rw [Row.name_of_find found] at foundThere
  exact foundThere.trans found.symm

end Distinct

/-- A row is received by name only if its columns are named as the members, in
some order.  Then the columns found are all the columns, each of them once; they
bear the names of the members in turn, and are received as a row in that order
is by position; and the order in which the columns came does not matter. -/
theorem recvRowByName_arranges (map : OidMap) (fields : Fields) (names : fields.Names)
    (distinct : names.toList.Nodup) (row : Row) (out result : fields.Val)
    (received : recvRowByName map fields names row out = .ok result) :
    (row.map Column.name).Perm names.toList ∧
      (names.toList.map row.find).Perm (List.range row.length) ∧
      (row.arrange names.toList).map Column.name = names.toList ∧
      recvRowInOrder map fields (row.arrange names.toList) out = .ok result ∧
      ∀ other : Row, other.Perm row → recvRowByName map fields names other out = .ok result := by
  unfold recvRowByName at received
  split at received
  case isFalse => cases received
  case isTrue number =>
    have all := fields.recvMembers_found map row names out result received
    have sameNumber : row.length = names.toList.length := by rw [number, names.length_toList]
    have arranged : (row.arrange names.toList).length = fields.number := by
      rw [← List.length_map Column.name, Row.names_arrange all, names.length_toList]
    have byPosition := fields.recvMembers_eq map row names out all arranged
    refine ⟨Row.names_perm distinct all sameNumber, Row.positions_perm distinct all sameNumber,
      Row.names_arrange all, ?_, ?_⟩
    · unfold recvRowInOrder
      rw [dif_pos arranged, ← byPosition, received]
    · intro other same
      have allThere : ∀ name ∈ names.toList, name ∈ other.map Column.name :=
        fun name member => (same.map Column.name).mem_iff.mpr (all name member)
      have arrangedThere := Row.arrange_of_perm distinct all sameNumber same
      have equal := fields.recvMembers_eq map other names out allThere (by rw [arrangedThere, arranged])
      unfold recvRowByName
      rw [if_pos (same.length_eq.trans number), equal]
      simp only [arrangedThere]
      rw [← byPosition, received]

/-- A structure of a number and a text. -/
def digitAndText : Fields :=
  .cons (.plain (.scalar .int4)) (.cons (.plain (.scalar .text)) .nil)

/-- A row with the columns the other way round. -/
def textThenDigit : Row :=
  [⟨"text", 25, some [116]⟩, ⟨"digit", 23, some [0, 0, 0, 7]⟩]

theorem recvRowByName_arranges_textThenDigit :
    recvRowInOrder (fun _ => 0) digitAndText
        (textThenDigit.arrange ["digit", "text"]) digitAndText.default =
      .ok ((7 : Bytes.Word 4), [116], ()) :=
  (recvRowByName_arranges (fun _ => 0) digitAndText ("digit", "text", ()) (by decide) textThenDigit
    digitAndText.default ((7 : Bytes.Word 4), [116], ()) rfl).2.2.2.1

end Bozo.Io
