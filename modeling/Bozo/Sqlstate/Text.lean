import Bozo.Errc
import Bozo.Impl.AsyncRequest

/-!
# Error codes of SQL states

A server reports an SQL state as five characters.  Read as a number in base 36
they make the error code, whose class is recognised by the range of its value and
whose message writes the value in base 36 again.
-/

namespace Bozo

open Bozo.Detail Bozo.Impl Sqlstate

/-- An SQL state as the server sends it. -/
structure SqlstateText where
  chars : List UInt8
  length_eq : chars.length = 5
  digits : ∀ b ∈ chars, IsDigit36 b

namespace SqlstateText

/-- The number that an SQL state denotes. -/
def number (s : SqlstateText) : Nat :=
  digits36 0 s.chars

/-- The five digits of an SQL state. -/
theorem exists_digits (s : SqlstateText) :
    ∃ ds : List Nat, (∀ d ∈ ds, d < 36) ∧ ds.length = 5 ∧ ds.map digitChar = s.chars ∧
      s.number = Nat.ofDigits 36 ds.reverse := by
  obtain ⟨ds, smalls, spelled⟩ := Detail.exists_digits s.digits
  have length : ds.length = 5 := by
    rw [← s.length_eq, ← spelled, List.length_map]
  exact ⟨ds, smalls, length, spelled, by rw [number, ← spelled, digits36_eq_ofDigits smalls]⟩

theorem number_lt (s : SqlstateText) : s.number < 36 ^ 5 := by
  obtain ⟨ds, smalls, length, -, number⟩ := s.exists_digits
  have bound : Nat.ofDigits 36 ds.reverse < 36 ^ ds.reverse.length :=
    Nat.ofDigits_lt_base_pow_length (by decide) (by simpa using smalls)
  rwa [List.length_reverse, length, ← number] at bound

/-- The class of an SQL state is its number without the last three digits. -/
theorem number_div (s : SqlstateText) : s.number / 46656 = digits36 0 (s.chars.take 2) := by
  obtain ⟨ds, smalls, length, spelled, number⟩ := s.exists_digits
  have smalls' : ∀ d ∈ ds.reverse, d < 36 := by simpa using smalls
  have taken : ∀ d ∈ ds.take 2, d < 36 := fun d member => smalls d (List.mem_of_mem_take member)
  calc s.number / 46656
      = Nat.ofDigits 36 ds.reverse / 36 ^ 3 := by rw [number, show 46656 = 36 ^ 3 by rfl]
    _ = Nat.ofDigits 36 (ds.reverse.drop 3) :=
        Nat.ofDigits_div_pow_eq_ofDigits_drop 3 (by decide) ds.reverse smalls'
    _ = Nat.ofDigits 36 (ds.take 2).reverse := by rw [List.drop_reverse, length]
    _ = digits36 0 ((ds.take 2).map digitChar) := (digits36_eq_ofDigits taken).symm
    _ = digits36 0 (s.chars.take 2) := by rw [List.map_take, spelled]

end SqlstateText

/-- The code that `result_error` makes has the number as its value. -/
theorem resultError_eq (status : ExecStatus) (s : SqlstateText) :
    resultError ⟨status, some s.chars⟩ = ⟨s.number, .sqlstate⟩ := by
  obtain ⟨ds, smalls, -, spelled, number⟩ := s.exists_digits
  have bound := s.number_lt
  have read : strtol36 s.chars = s.number := by
    change b36tol s.chars = _
    rw [← spelled, b36tol_map_digitChar smalls, ← number, longMax]
    omega
  change sqlstateCode (strtol36 s.chars) = _
  rw [read, sqlstateCode, Bytes.int32_natCast (by omega)]

/-! ## Classes -/

/-- What a class condition has to be: its value is the least one of the class
that its comment names, and its case of the switch is reached. -/
structure IsClass (c : Sqlstate) : Prop where
  value_eq : c.value = 46656 * digits36 0 (ascii c.className)
  length_eq : (ascii c.className).length = 2
  digits : ∀ b ∈ ascii c.className, IsDigit36 b
  found : Sqlstate.classes.find? (fun other => decide (other.value = c.value)) = some c

theorem classes_table : Sqlstate.classes.all (fun c =>
    decide (c.value = 46656 * digits36 0 (ascii c.className)) &&
      decide ((ascii c.className).length = 2) &&
      (ascii c.className).all (fun b => decide (IsDigit36 b)) &&
      decide (Sqlstate.classes.find? (fun other => decide (other.value = c.value)) = some c)) =
        true := by
  decide +kernel

theorem isClass_of_mem {c : Sqlstate} (member : c ∈ Sqlstate.classes) : IsClass c := by
  have row := List.all_eq_true.mp classes_table c member
  simp only [Bool.and_eq_true, decide_eq_true_eq, List.all_eq_true] at row
  rcases row with ⟨⟨⟨value_eq, length_eq⟩, digits⟩, found⟩
  exact ⟨value_eq, length_eq, digits, found⟩

namespace IsClass

variable {c : Sqlstate}

/-- The range of a class holds the states that begin with its characters. -/
theorem valueIn_iff (class_ : IsClass c) (s : SqlstateText) :
    valueIn s.number c = true ↔ s.chars.take 2 = ascii c.className := by
  have range : valueIn s.number c = true ↔
      s.number / 46656 = digits36 0 (ascii c.className) := by
    rw [valueIn, decide_eq_true_eq, class_.value_eq, classWidth]
    omega
  rw [range, s.number_div]
  constructor
  · apply digits36_inj
    · intro b member
      exact s.digits b (List.mem_of_mem_take member)
    · exact class_.digits
    · rw [class_.length_eq, List.length_take, s.length_eq]
      rfl
  · intro same
    rw [same]

theorem equivalent_eq (class_ : IsClass c) (n : Int) :
    Sqlstate.equivalent ⟨n, .sqlstate⟩ c.value = valueIn n c := by
  rw [Sqlstate.equivalent, if_pos rfl, class_.found]

/-- The test by the category of the code adds nothing to that by the category of
the condition. -/
theorem isEqualBy_eq (class_ : IsClass c) (n : Int)
    {equivalent : Category → ErrorCode → Int → Bool}
    (own : equivalent .sqlstate = Sqlstate.equivalent) :
    Matcher.isEqualBy equivalent (.condition c.condition) ⟨n, .sqlstate⟩ = valueIn n c := by
  change (decide _ || equivalent .sqlstate _ c.value) = _
  rw [own, class_.equivalent_eq]
  by_cases inside : valueIn n c = true
  · rw [inside, Bool.or_true]
  · have apart : ErrorCode.defaultErrorCondition ⟨n, .sqlstate⟩ ≠ c.condition := by
      intro same
      apply inside
      have least : n = c.value := congrArg ErrorCondition.value same
      rw [least, valueIn, decide_eq_true_eq, classWidth]
      omega
    rw [decide_eq_false apart, Bool.false_or]

end IsClass

/-- Of the codes and conditions of `connection_error` only one is an SQL state. -/
theorem is_connectionError_eq (n : Int) :
    ErrorCode.is ⟨n, .sqlstate⟩ .connectionError =
      valueIn n Sqlstate.connectionException := by
  have listed : Errc.matchCode .connectionError ⟨n, .sqlstate⟩ =
      Matcher.isEqualBy Errc.otherEquivalent
        (.condition Sqlstate.connectionException.condition) ⟨n, .sqlstate⟩ := by
    simp [Errc.matchCode, Failover.matchCode, Errc.codesForCondition, Matcher.isEqualBy,
      Error.code, operationAborted, ErrorCode.defaultErrorCondition, Errc.otherEquivalent,
      Category.equivalent]
  rw [ErrorCode.is, Matcher.isEqual, Matcher.isEqualBy]
  change (decide _ || Errc.matchCode .connectionError _) = _
  rw [listed, (isClass_of_mem (by decide)).isEqualBy_eq n rfl]
  simp [ErrorCode.defaultErrorCondition, Errc.condition]

/-- The code of an SQL state is equal to a class condition exactly when the state
begins with the characters of the class.  Hence it is equal to no other class
condition, and it is a connection error exactly when the class is `08`. -/
theorem resultError_class (status : ExecStatus) (s : SqlstateText) {c : Sqlstate}
    (member : c ∈ Sqlstate.classes) :
    (Sqlstate.equivalent (resultError ⟨status, some s.chars⟩) c.value = true ↔
        s.chars.take 2 = ascii c.className) ∧
      (Matcher.isEqual (.condition c.condition) (resultError ⟨status, some s.chars⟩) = true ↔
        s.chars.take 2 = ascii c.className) ∧
      (∀ other ∈ Sqlstate.classes, other ≠ c →
        ¬(Matcher.isEqual (.condition c.condition) (resultError ⟨status, some s.chars⟩) = true ∧
          Matcher.isEqual (.condition other.condition)
            (resultError ⟨status, some s.chars⟩) = true)) ∧
      ((resultError ⟨status, some s.chars⟩).is .connectionError = true ↔
        s.chars.take 2 = ascii "08") := by
  have equal_iff : ∀ c ∈ Sqlstate.classes,
      Matcher.isEqual (.condition c.condition) (resultError ⟨status, some s.chars⟩) = true ↔
        s.chars.take 2 = ascii c.className := by
    intro c member
    have class_ := isClass_of_mem member
    rw [resultError_eq, Matcher.isEqual, class_.isEqualBy_eq s.number rfl, class_.valueIn_iff]
  have class_ := isClass_of_mem member
  constructor
  · rw [resultError_eq, class_.equivalent_eq, class_.valueIn_iff]
  constructor
  · exact equal_iff c member
  constructor
  · rintro other member' differ ⟨equal, equal'⟩
    apply differ
    have class' := isClass_of_mem member'
    rw [equal_iff c member] at equal
    rw [equal_iff other member', equal] at equal'
    have found := class'.found
    rw [class'.value_eq, ← equal', ← class_.value_eq, class_.found] at found
    exact (Option.some.inj found).symm
  · have connection : IsClass Sqlstate.connectionException := isClass_of_mem (by decide)
    rw [resultError_eq, is_connectionError_eq, connection.valueIn_iff]
    rfl

/-- `connection_failure`. -/
def SqlstateText.connectionFailure : SqlstateText where
  chars := ascii "08006"
  length_eq := rfl
  digits := by
    have all : (ascii "08006").all (fun b => decide (IsDigit36 b)) = true := rfl
    intro b member
    exact of_decide_eq_true (List.all_eq_true.mp all b member)

theorem resultError_class_connectionFailure :
    Sqlstate.connectionException ∈ Sqlstate.classes ∧
      SqlstateText.connectionFailure.chars.take 2 = ascii Sqlstate.connectionException.className ∧
      Matcher.isEqual (.condition Sqlstate.connectionException.condition)
        (resultError ⟨.fatalError, some SqlstateText.connectionFailure.chars⟩) = true := by
  have member : Sqlstate.connectionException ∈ Sqlstate.classes := by decide
  have begins : SqlstateText.connectionFailure.chars.take 2 =
      ascii Sqlstate.connectionException.className := rfl
  exact ⟨member, begins, (resultError_class .fatalError _ member).2.1.mpr begins⟩

/-! ## Messages -/

/-- The message for a value with a text in the place of the code. -/
def messageShowing (value : Int) (text : List UInt8) : List UInt8 :=
  match named.find? fun c => decide (c.value = value) with
  | some c => ascii c.name ++ ascii "(" ++ text ++ ascii ")"
  | none => ascii "sql state " ++ text

theorem message_eq (value : Int) : message value = messageShowing value (ltob36 value) :=
  rfl

/-- The number of an SQL state is written as the state unless that begins with a
zero, which is not written. -/
theorem ltob36_number_iff (s : SqlstateText) :
    ltob36 s.number = s.chars ↔ s.chars.head? ≠ some 48 := by
  have bound := s.number_lt
  have bounded : s.number < 2 ^ 64 := by omega
  constructor
  · intro same
    by_cases zero : s.number = 0
    · have length := s.length_eq
      rw [← same, zero, ltob36_natCast (by decide)] at length
      cases length
    · rw [← same]
      exact head?_ltob36 bounded zero
  · intro leading
    obtain ⟨ds, smalls, length, spelled, number⟩ := s.exists_digits
    rw [number] at bounded ⊢
    rw [← spelled] at leading ⊢
    apply ltob36_ofDigits smalls _ _ bounded
    · intro empty
      rw [empty] at length
      cases length
    · intro zero
      apply leading
      rw [List.head?_map, zero]
      rfl

/-- The message of the code of an SQL state shows the state exactly when the state
does not begin with a zero. -/
theorem message_shows_iff (status : ExecStatus) (s : SqlstateText) :
    (ltob36 (resultError ⟨status, some s.chars⟩).value = s.chars ∧
        message (resultError ⟨status, some s.chars⟩).value =
          messageShowing (resultError ⟨status, some s.chars⟩).value s.chars) ↔
      s.chars.head? ≠ some 48 := by
  rw [resultError_eq, ← ltob36_number_iff s]
  constructor
  · intro shows
    exact shows.1
  · intro same
    constructor
    · exact same
    · rw [message_eq, same]

/-- A state of class `08` is shown without its zero. -/
theorem message_drops_zero :
    message (resultError ⟨.fatalError, some SqlstateText.connectionFailure.chars⟩).value =
        ascii "connection_failure(8006)" ∧
      ¬∀ (status : ExecStatus) (s : SqlstateText),
        ltob36 (resultError ⟨status, some s.chars⟩).value = s.chars ∧
          message (resultError ⟨status, some s.chars⟩).value =
            messageShowing (resultError ⟨status, some s.chars⟩).value s.chars := by
  constructor
  · have written : ltob36 373254 = ascii "8006" :=
      @ltob36_ofDigits [8, 0, 0, 6] (by decide) (by decide) (by decide) (by decide)
    change messageShowing 373254 (ltob36 373254) = _
    rw [written]
    decide +kernel
  · intro shows
    have same := (shows .fatalError SqlstateText.connectionFailure).1
    rw [resultError_eq, ltob36_number_iff] at same
    exact same rfl

end Bozo
