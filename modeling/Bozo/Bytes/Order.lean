import Mathlib.Algebra.Ring.Int.Defs
import Mathlib.Algebra.Ring.Nat
import Mathlib.Tactic.Common

/-!
# Machine words and their byte order

A word of `n` bytes is a bit vector of width `8 * n`.  The bytes of a word are
listed as a little-endian host stores them, and `byteOrderSwap` is the
shift-and-mask reversal by which such a host produces network order.  Storing
the swapped word therefore lists the bytes from the most significant one down,
and loading them and swapping again restores the word.

The last section is the two's-complement conversion of an arbitrary integer to
a 32-bit one.
-/

namespace Bozo.Bytes

/-- A machine word of `n` bytes. -/
abbrev Word (n : Nat) := BitVec (8 * n)

variable {n : Nat}

/-! ## Storing and loading -/

/-- The byte of significance `i` of a word. -/
def byte (x : Word n) (i : Nat) : UInt8 :=
  ⟨x.extractLsb' (8 * i) 8⟩

/-- The bytes of a word in the order of their significance: what a
little-endian host stores. -/
def rawBytes (x : Word n) : List UInt8 :=
  (List.range n).map (byte x)

/-- The word whose byte of significance `i` is the `i`-th entry of a list. -/
def ofRaw : List UInt8 → Word n
  | [] => 0
  | b :: bs => b.toBitVec.setWidth (8 * n) ||| (ofRaw bs <<< 8)

@[simp]
theorem length_rawBytes (x : Word n) : (rawBytes x).length = n := by
  simp [rawBytes]

theorem getLsbD_byte (x : Word n) (i j : Nat) :
    (byte x i).toBitVec.getLsbD j = (decide (j < 8) && x.getLsbD (8 * i + j)) := by
  simp [byte]

theorem getLsbD_ofRaw (bytes : List UInt8) (i : Nat) :
    (ofRaw bytes : Word n).getLsbD i =
      (decide (i < 8 * n) && (bytes.getD (i / 8) 0).toBitVec.getLsbD (i % 8)) := by
  induction bytes generalizing i with
  | nil => simp [ofRaw]
  | cons b bs ih =>
      simp only [ofRaw, BitVec.getLsbD_or, BitVec.getLsbD_setWidth,
        BitVec.getLsbD_shiftLeft, ih]
      by_cases low : i < 8
      · have first : i / 8 = 0 := by omega
        have offset : i % 8 = i := by omega
        simp [low, first, offset]
      · have later : i / 8 = (i - 8) / 8 + 1 := by omega
        have offset : i % 8 = (i - 8) % 8 := by omega
        have beyond : b.toBitVec.getLsbD i = false :=
          BitVec.getLsbD_of_ge _ _ (by omega)
        have within : i < 8 * n → i - 8 < 8 * n := by omega
        by_cases bound : i < 8 * n
        · simp [low, bound, later, offset, beyond, within bound]
        · simp [bound]

/-- Loading what was stored gives the word back. -/
theorem ofRaw_rawBytes (x : Word n) : ofRaw (rawBytes x) = x := by
  apply BitVec.eq_of_getLsbD_eq
  intro i bound
  have position : i / 8 < n := by omega
  have entry : (rawBytes x).getD (i / 8) 0 = byte x (i / 8) := by
    simp [rawBytes, position]
  rw [getLsbD_ofRaw, entry, getLsbD_byte]
  have rejoin : 8 * (i / 8) + i % 8 = i := by omega
  simp [bound, rejoin, Nat.mod_lt]

/-! ## Byte order -/

/-- One byte of the reversal: the byte of significance `i`, isolated with a
mask and moved to the mirrored significance. -/
def mirroredByte (x : Word n) (i : Nat) : Word n :=
  ((x >>> (8 * i)) &&& BitVec.ofNat (8 * n) 255) <<< (8 * (n - 1 - i))

/-- Reversal of the bytes of a word by shifting and masking. -/
def byteOrderSwap (x : Word n) : Word n :=
  ((List.range n).map (mirroredByte x)).foldr (· ||| ·) 0

theorem getLsbD_foldr_or (words : List (Word n)) (i : Nat) :
    (words.foldr (· ||| ·) 0).getLsbD i = words.any (·.getLsbD i) := by
  induction words with
  | nil => simp
  | cons word words ih =>
      simp only [List.foldr_cons, BitVec.getLsbD_or, List.any_cons, ih]

theorem testBit_byteMask (j : Nat) : Nat.testBit 255 j = decide (j < 8) :=
  Nat.testBit_two_pow_sub_one 8 j

theorem getLsbD_mirroredByte (x : Word n) {i k : Nat} (kBound : k < n) :
    (mirroredByte x k).getLsbD i =
      (decide (i < 8 * n ∧ i / 8 = n - 1 - k) && x.getLsbD (8 * k + i % 8)) := by
  simp only [mirroredByte, BitVec.getLsbD_shiftLeft, BitVec.getLsbD_and,
    BitVec.getLsbD_ushiftRight, BitVec.getLsbD_ofNat, testBit_byteMask]
  by_cases bound : i < 8 * n
  · by_cases position : i / 8 = n - 1 - k
    · have offset : i - 8 * (n - 1 - k) = i % 8 := by omega
      have reached : ¬ i < 8 * (n - 1 - k) := by omega
      have inByte : i % 8 < 8 := Nat.mod_lt _ (by decide)
      have inWord : i % 8 < 8 * n := by omega
      rw [offset]
      simp [bound, position, reached, inByte, inWord]
    · have outside : i < 8 * (n - 1 - k) ∨ ¬ i - 8 * (n - 1 - k) < 8 := by omega
      rcases outside with before | after
      · simp [before, position]
      · simp [after, position]
  · simp [bound]

/-- Bit `i` of the reversal is the bit at the same place of the mirrored
byte. -/
theorem getLsbD_byteOrderSwap (x : Word n) {i : Nat} (bound : i < 8 * n) :
    (byteOrderSwap x).getLsbD i = x.getLsbD (8 * (n - 1 - i / 8) + i % 8) := by
  rw [byteOrderSwap, getLsbD_foldr_or, List.any_map, Bool.eq_iff_iff, List.any_eq_true]
  constructor
  · rintro ⟨k, member, set⟩
    have kBound : k < n := List.mem_range.mp member
    simp only [Function.comp_apply, getLsbD_mirroredByte x kBound,
      Bool.and_eq_true, decide_eq_true_eq] at set
    have mirrored : n - 1 - i / 8 = k := by omega
    rw [mirrored]
    exact set.2
  · intro set
    refine ⟨n - 1 - i / 8, List.mem_range.mpr (by omega), ?_⟩
    have kBound : n - 1 - i / 8 < n := by omega
    simp only [Function.comp_apply, getLsbD_mirroredByte x kBound,
      Bool.and_eq_true, decide_eq_true_eq]
    exact ⟨⟨bound, by omega⟩, set⟩

/-- Byte-order reversal is an involution. -/
@[simp]
theorem byteOrderSwap_byteOrderSwap (x : Word n) :
    byteOrderSwap (byteOrderSwap x) = x := by
  apply BitVec.eq_of_getLsbD_eq
  intro i bound
  rw [getLsbD_byteOrderSwap _ bound, getLsbD_byteOrderSwap _ (by omega)]
  congr 1
  omega

/-- Storing the reversed word lists its bytes from the most significant one
down, that is, in network order. -/
theorem rawBytes_byteOrderSwap (x : Word n) :
    rawBytes (byteOrderSwap x) = (List.range n).map fun i => byte x (n - 1 - i) := by
  apply List.map_congr_left
  intro i member
  have position : i < n := List.mem_range.mp member
  apply UInt8.toBitVec_inj.mp
  apply BitVec.eq_of_getLsbD_eq
  intro j inByte
  rw [getLsbD_byte, getLsbD_byte, getLsbD_byteOrderSwap _ (by omega)]
  have quotient : (8 * i + j) / 8 = i := by omega
  have remainder : (8 * i + j) % 8 = j := by omega
  rw [quotient, remainder]

/-! ## Conversion to 32 bits -/

/-- Conversion of an integer to a signed 32-bit one, modulo `2 ^ 32`. -/
def int32 (x : Int) : Int :=
  Int.bmod x (2 ^ 32)

theorem int32_eq_self {x : Int} (lower : -2 ^ 31 ≤ x) (upper : x < 2 ^ 31) : int32 x = x := by
  unfold int32
  rw [Int.bmod_def]
  omega

/-- A count in range is represented. -/
theorem int32_natCast {n : Nat} (upper : n < 2 ^ 31) : int32 n = n :=
  int32_eq_self (by omega) (by omega)

theorem int32_lower (x : Int) : -2 ^ 31 ≤ int32 x := by
  unfold int32
  rw [Int.bmod_def]
  omega

theorem int32_upper (x : Int) : int32 x < 2 ^ 31 := by
  unfold int32
  rw [Int.bmod_def]
  omega

/-- Two integers have the same 32-bit conversion exactly when they are
congruent modulo `2 ^ 32`. -/
theorem int32_eq_int32_iff (x y : Int) : int32 x = int32 y ↔ (2 ^ 32 : Int) ∣ x - y := by
  unfold int32
  rw [Int.bmod_def, Int.bmod_def]
  omega

@[simp]
theorem int32_int32_add (x y : Int) : int32 (int32 x + y) = int32 (x + y) := by
  rw [int32_eq_int32_iff]
  unfold int32
  rw [Int.bmod_def]
  omega

@[simp]
theorem int32_add_int32 (x y : Int) : int32 (x + int32 y) = int32 (x + y) := by
  rw [Int.add_comm, int32_int32_add, Int.add_comm]

@[simp]
theorem int32_int32 (x : Int) : int32 (int32 x) = int32 x :=
  int32_eq_self (int32_lower x) (int32_upper x)

/-- A running 32-bit sum is the 32-bit conversion of the sum. -/
theorem foldl_int32_add (terms : List Int) (start : Int) :
    terms.foldl (fun sum term => int32 (sum + term)) (int32 start) =
      int32 (start + terms.sum) := by
  induction terms generalizing start with
  | nil => simp
  | cons term terms ih =>
      rw [List.foldl_cons, int32_int32_add, ih, List.sum_cons, Int.add_assoc]

@[simp]
theorem toInt_ofInt_int32 (x : Int) : (BitVec.ofInt (8 * 4) x).toInt = int32 x := by
  rw [BitVec.toInt_ofInt]
  rfl

end Bozo.Bytes
