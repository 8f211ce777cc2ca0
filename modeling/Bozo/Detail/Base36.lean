import Bozo.Error
import Mathlib.Data.Nat.Digits.Lemmas
import Mathlib.Tactic.IntervalCases

/-!
# Numbers in base 36

`ltob36` pushes the digits of a number from the least significant one on and
reverses them; `b36tol` reads a text from the most significant digit on.  Both
are compared with Mathlib's list of digits.
-/

namespace Bozo.Detail

open Bozo

/-- The character of a digit. -/
def digitChar (d : Nat) : UInt8 :=
  if d < 10 then 48 + UInt8.ofNat d else 65 + UInt8.ofNat d - 10

/-- The loop of `ltob36`. -/
def pushDigits (out : List UInt8) (u : Nat) : List UInt8 :=
  let out := out ++ [digitChar (u % 36)]
  if 0 < u / 36 then pushDigits out (u / 36) else out
termination_by u

/-- `detail::ltob36`. -/
def ltob36 (i : Int) : List UInt8 :=
  (pushDigits [] (i % 2 ^ 64).toNat).reverse

/-- `detail::b36tol`, on the characters before the terminating NUL. -/
def b36tol (text : List UInt8) : Int :=
  strtol36 text

/-- The characters `[0-9A-Z]`. -/
def IsDigit36 (b : UInt8) : Prop :=
  (48 ≤ b ∧ b ≤ 57) ∨ (65 ≤ b ∧ b ≤ 90)

instance (b : UInt8) : Decidable (IsDigit36 b) :=
  inferInstanceAs (Decidable (_ ∨ _))

/-- The largest value of `long`. -/
def longMax : Int :=
  2 ^ 63 - 1

/-! ## Characters -/

theorem isDigit36_digitChar {d : Nat} (small : d < 36) : IsDigit36 (digitChar d) := by
  interval_cases d <;> decide

theorem digit36?_digitChar {d : Nat} (small : d < 36) : digit36? (digitChar d) = some d := by
  interval_cases d <;> rfl

theorem isSpace_digitChar {d : Nat} (small : d < 36) : isSpace (digitChar d) = false := by
  interval_cases d <;> rfl

theorem digitChar_injOn {d e : Nat} (small : d < 36) (small' : e < 36)
    (same : digitChar d = digitChar e) : d = e := by
  have read := digit36?_digitChar small
  rw [same, digit36?_digitChar small'] at read
  exact (Option.some.inj read).symm

/-- Every character of the range is the character of a digit. -/
theorem IsDigit36.exists_digit {b : UInt8} (digit : IsDigit36 b) :
    ∃ d, d < 36 ∧ digitChar d = b := by
  rcases digit with ⟨low, high⟩ | ⟨low, high⟩
  · have least : 48 ≤ b.toNat := UInt8.le_iff_toNat_le.mp low
    have greatest : b.toNat ≤ 57 := UInt8.le_iff_toNat_le.mp high
    have small : b.toNat - 48 < 10 := by omega
    use b.toNat - 48, by omega
    apply UInt8.toNat_inj.mp
    rw [digitChar, if_pos small, UInt8.toNat_add, UInt8.toNat_ofNat']
    simp only [UInt8.reduceToNat]
    omega
  · have least : 65 ≤ b.toNat := UInt8.le_iff_toNat_le.mp low
    have greatest : b.toNat ≤ 90 := UInt8.le_iff_toNat_le.mp high
    have large : ¬b.toNat - 55 < 10 := by omega
    use b.toNat - 55, by omega
    apply UInt8.toNat_inj.mp
    rw [digitChar, if_neg large, UInt8.toNat_sub, UInt8.toNat_add, UInt8.toNat_ofNat']
    simp only [UInt8.reduceToNat]
    omega

/-- A text over the range is spelled by digits. -/
theorem exists_digits {text : List UInt8} (digits : ∀ b ∈ text, IsDigit36 b) :
    ∃ ds : List Nat, (∀ d ∈ ds, d < 36) ∧ ds.map digitChar = text := by
  induction text with
  | nil => exact ⟨[], by simp, rfl⟩
  | cons b text ih =>
      obtain ⟨d, small, rfl⟩ := (digits b List.mem_cons_self).exists_digit
      obtain ⟨ds, smalls, rfl⟩ := ih fun b member => digits b (List.mem_cons_of_mem _ member)
      exact ⟨d :: ds, List.forall_mem_cons.mpr ⟨small, smalls⟩, rfl⟩

/-! ## Reading -/

/-- Reading digits is Horner's rule. -/
theorem digits36_map_digitChar (value : Nat) {ds : List Nat} (smalls : ∀ d ∈ ds, d < 36) :
    digits36 value (ds.map digitChar) = ds.foldl (fun value d => value * 36 + d) value := by
  induction ds generalizing value with
  | nil => rfl
  | cons d ds ih =>
      rcases List.forall_mem_cons.mp smalls with ⟨small, smalls⟩
      simp only [List.map_cons, digits36, digit36?_digitChar small, List.foldl_cons]
      exact ih _ smalls

/-- Digits written from the most significant one on denote their number. -/
theorem digits36_eq_ofDigits {ds : List Nat} (smalls : ∀ d ∈ ds, d < 36) :
    digits36 0 (ds.map digitChar) = Nat.ofDigits 36 ds.reverse := by
  rw [digits36_map_digitChar 0 smalls, Nat.ofDigits_eq_foldr, List.foldr_reverse]
  congr 1
  funext value d
  simp [Nat.mul_comm, Nat.add_comm]

/-- Texts of one length that denote the same number are the same. -/
theorem digits36_inj {text text' : List UInt8} (digits : ∀ b ∈ text, IsDigit36 b)
    (digits' : ∀ b ∈ text', IsDigit36 b) (length : text.length = text'.length)
    (same : digits36 0 text = digits36 0 text') : text = text' := by
  obtain ⟨ds, smalls, rfl⟩ := exists_digits digits
  obtain ⟨es, smalls', rfl⟩ := exists_digits digits'
  rw [digits36_eq_ofDigits smalls, digits36_eq_ofDigits smalls'] at same
  have reversed : ds.reverse = es.reverse := by
    apply Nat.ofDigits_inj_of_len_eq (by decide) _ _ _ same
    · simpa using length
    · simpa using smalls
    · simpa using smalls'
  rw [List.reverse_injective reversed]

/-- A text that begins with a digit is read without a sign. -/
theorem b36tol_map_digitChar {ds : List Nat} (smalls : ∀ d ∈ ds, d < 36) :
    b36tol (ds.map digitChar) = min longMax ((Nat.ofDigits 36 ds.reverse : Nat) : Int) := by
  rw [← digits36_eq_ofDigits smalls]
  cases ds with
  | nil => rfl
  | cons d ds =>
      have small := smalls d List.mem_cons_self
      unfold b36tol strtol36
      rw [List.map_cons, List.dropWhile_cons_of_neg (by simp [isSpace_digitChar small])]
      split
      · rename_i rest start
        have read := digit36?_digitChar small
        rw [(List.cons.inj start).1] at read
        cases read
      · rename_i rest start
        have read := digit36?_digitChar small
        rw [(List.cons.inj start).1] at read
        cases read
      · rfl

/-! ## Writing -/

/-- The digits that the loop pushes, least significant first. -/
theorem pushDigits_eq (out : List UInt8) (u : Nat) :
    pushDigits out u =
      out ++ (if u = 0 then [0] else Nat.digits 36 u).map digitChar := by
  induction u using Nat.strong_induction_on generalizing out with
  | _ u ih =>
      rw [pushDigits]
      by_cases more : 0 < u / 36
      · have positive : 0 < u := Nat.pos_of_div_pos more
        have smaller : u / 36 < u := Nat.div_lt_self positive (by decide)
        rw [if_pos more, ih _ smaller, if_neg more.ne', if_neg positive.ne',
          Nat.digits_def' (by decide) positive, List.map_cons, List.append_assoc,
          List.singleton_append]
      · rw [if_neg more]
        have last : u / 36 = 0 := Nat.eq_zero_of_not_pos more
        by_cases zero : u = 0
        · subst zero
          rfl
        · rw [if_neg zero, Nat.digits_def' (by decide) (Nat.pos_of_ne_zero zero), last,
            Nat.digits_zero]
          rfl

/-- The digits of a number of the range, most significant first. -/
theorem ltob36_natCast {n : Nat} (bounded : n < 2 ^ 64) :
    ltob36 n = (if n = 0 then [0] else (Nat.digits 36 n).reverse).map digitChar := by
  have wrapped : ((n : Int) % 2 ^ 64).toNat = n := by
    rw [Int.emod_eq_of_lt (Int.natCast_nonneg n) (by exact_mod_cast bounded)]
    rfl
  rw [ltob36, wrapped, pushDigits_eq, List.nil_append, ← List.map_reverse]
  by_cases zero : n = 0
  · rw [if_pos zero, if_pos zero]
    rfl
  · rw [if_neg zero, if_neg zero]

/-- A number of the range spelled by digits without a leading zero is written
as they are. -/
theorem ltob36_ofDigits {ds : List Nat} (smalls : ∀ d ∈ ds, d < 36) (nonempty : ds ≠ [])
    (leading : ds.head? ≠ some 0) (bounded : Nat.ofDigits 36 ds.reverse < 2 ^ 64) :
    ltob36 (Nat.ofDigits 36 ds.reverse : Nat) = ds.map digitChar := by
  have digits : Nat.digits 36 (Nat.ofDigits 36 ds.reverse) = ds.reverse := by
    apply Nat.digits_ofDigits 36 (by decide)
    · simpa using smalls
    · intro nonempty' last
      apply leading
      rw [List.getLast_reverse] at last
      rw [List.head?_eq_some_head nonempty, last]
  have positive : Nat.ofDigits 36 ds.reverse ≠ 0 := by
    intro zero
    rw [zero, Nat.digits_zero] at digits
    exact nonempty (List.reverse_eq_nil_iff.mp digits.symm)
  rw [ltob36_natCast bounded, if_neg positive, digits, List.reverse_reverse]

/-- A positive number is written without a leading zero. -/
theorem head?_ltob36 {n : Nat} (bounded : n < 2 ^ 64) (positive : n ≠ 0) :
    (ltob36 n).head? ≠ some 48 := by
  have nonempty : Nat.digits 36 n ≠ [] := Nat.digits_ne_nil_iff_ne_zero.mpr positive
  have leading := Nat.getLast_digit_ne_zero 36 positive
  rw [ltob36_natCast bounded, if_neg positive, List.head?_map, List.head?_reverse,
    List.getLast?_eq_some_getLast nonempty, Option.map_some]
  intro same
  apply leading
  have small := Nat.digits_lt_base (by decide) (List.getLast_mem nonempty)
  exact digitChar_injOn small (by decide) (Option.some.inj same)

/-- Only characters of digits are written. -/
theorem isDigit36_of_mem_ltob36 {n : Nat} (bounded : n < 2 ^ 64) {b : UInt8}
    (member : b ∈ ltob36 n) : IsDigit36 b := by
  rw [ltob36_natCast bounded] at member
  obtain ⟨d, digit, rfl⟩ := List.mem_map.mp member
  apply isDigit36_digitChar
  by_cases zero : n = 0
  · rw [if_pos zero, List.mem_singleton] at digit
    rw [digit]
    decide
  · rw [if_neg zero, List.mem_reverse] at digit
    exact Nat.digits_lt_base (by decide) digit

/-- Reading what was written. -/
theorem b36tol_ltob36 {n : Nat} (bounded : (n : Int) ≤ longMax) : b36tol (ltob36 n) = n := by
  have small : n < 2 ^ 64 := by
    unfold longMax at bounded
    omega
  rw [ltob36_natCast small]
  by_cases zero : n = 0
  · rw [if_pos zero, zero]
    rfl
  · have smalls : ∀ d ∈ (Nat.digits 36 n).reverse, d < 36 := by
      intro d member
      exact Nat.digits_lt_base (by decide) (List.mem_reverse.mp member)
    rw [if_neg zero, b36tol_map_digitChar smalls, List.reverse_reverse, Nat.ofDigits_digits]
    exact min_eq_right bounded

/-- Every number of the non-negative half of `long` is written as a non-empty
text over `[0-9A-Z]` without a leading zero, which is read back as the number;
hence two numbers are never written alike. -/
theorem ltob36_lossless {n : Int} (nonnegative : 0 ≤ n) (bounded : n ≤ longMax) :
    ltob36 n ≠ [] ∧
      (∀ b ∈ ltob36 n, IsDigit36 b) ∧
      (if n = 0 then ltob36 n = [48] else (ltob36 n).head? ≠ some 48) ∧
      b36tol (ltob36 n) = n ∧
      ∀ m, 0 ≤ m → m ≤ longMax → ltob36 m = ltob36 n → m = n := by
  obtain ⟨n, rfl⟩ := Int.eq_ofNat_of_zero_le nonnegative
  have small : n < 2 ^ 64 := by
    unfold longMax at bounded
    omega
  have read := b36tol_ltob36 bounded
  constructor
  · rw [ltob36_natCast small]
    by_cases zero : n = 0
    · simp [zero]
    · simp [zero, Nat.digits_eq_nil_iff_eq_zero]
  constructor
  · intro b member
    exact isDigit36_of_mem_ltob36 small member
  constructor
  · by_cases zero : n = 0
    · subst zero
      exact ltob36_natCast small
    · rw [if_neg (by exact_mod_cast zero)]
      exact head?_ltob36 small zero
  constructor
  · exact read
  · intro m nonnegative' bounded' same
    obtain ⟨m, rfl⟩ := Int.eq_ofNat_of_zero_le nonnegative'
    rw [← b36tol_ltob36 bounded', same, read]

/-- The code of `fdw_out_of_memory`. -/
theorem ltob36_lossless_HV001 :
    (0 : Int) ≤ 29999809 ∧ (29999809 : Int) ≤ longMax ∧ b36tol (ltob36 29999809) = 29999809 := by
  have nonnegative : (0 : Int) ≤ 29999809 := by decide
  have bounded : (29999809 : Int) ≤ longMax := by decide
  exact ⟨nonnegative, bounded, (ltob36_lossless nonnegative bounded).2.2.2.1⟩

end Bozo.Detail
