import Bozo.Bytes.Order

/-!
# Readers over a byte sequence

A reader consumes a front part of a byte sequence and returns a value with the
bytes that are left, or fails.  The rules below are what decoders are reasoned
with: how a successful sequence of reads splits, what a read of fixed length
consumes, and how a reader is iterated over a list of destinations.
-/

namespace Bozo.Bytes

/-- A decoder: an error, or a value and the remaining bytes. -/
def Reader (ε α : Type) : Type :=
  List UInt8 → Except ε (α × List UInt8)

namespace Reader

variable {ε α β γ : Type}

instance : Monad (Reader ε) where
  pure value := fun bytes => .ok (value, bytes)
  bind reader next := fun bytes =>
    match reader bytes with
    | .error e => .error e
    | .ok (value, rest) => next value rest

instance : LawfulMonad (Reader ε) := by
  refine LawfulMonad.mk' _ ?_ ?_ ?_
  · intro α reader
    funext bytes
    simp only [Functor.map]
    cases reader bytes <;> rfl
  · intros
    rfl
  · intro α β γ reader next after
    funext bytes
    simp only [bind]
    cases reader bytes <;> rfl

/-- The reader that fails without consuming anything. -/
def fail (e : ε) : Reader ε α :=
  fun _ => .error e

/-- Fail with `e` unless a condition holds. -/
def require (condition : Prop) [Decidable condition] (e : ε) : Reader ε Unit :=
  if condition then pure () else fail e

/-- Take exactly `n` bytes, failing with `eof` when fewer are left. -/
def take (eof : ε) (n : Nat) : Reader ε (List UInt8) := fun bytes =>
  if n ≤ bytes.length then .ok (bytes.take n, bytes.drop n) else .error eof

/-! ## Inversion of successful reads -/

theorem pure_apply (value : α) (bytes : List UInt8) :
    (pure value : Reader ε α) bytes = .ok (value, bytes) :=
  rfl

theorem pure_eq_ok_iff {value result : α} {bytes rest : List UInt8} :
    (pure value : Reader ε α) bytes = .ok (result, rest) ↔ result = value ∧ rest = bytes := by
  simp only [pure_apply, Except.ok.injEq, Prod.mk.injEq]
  exact and_congr eq_comm eq_comm

@[simp]
theorem fail_apply (e : ε) (bytes : List UInt8) :
    (fail e : Reader ε α) bytes = .error e :=
  rfl

theorem bind_of_ok {reader : Reader ε α} {next : α → Reader ε β} {value : α}
    {bytes rest : List UInt8} (read : reader bytes = .ok (value, rest)) :
    (reader >>= next) bytes = next value rest := by
  simp only [bind, read]

theorem bind_eq_ok_iff {reader : Reader ε α} {next : α → Reader ε β}
    {bytes : List UInt8} {result : β × List UInt8} :
    (reader >>= next) bytes = .ok result ↔
      ∃ value rest, reader bytes = .ok (value, rest) ∧ next value rest = .ok result := by
  simp only [bind]
  cases read : reader bytes with
  | error e => simp
  | ok output =>
      rcases output with ⟨value, rest⟩
      constructor
      · intro later
        exact ⟨value, rest, rfl, later⟩
      · rintro ⟨value', rest', equal, later⟩
        cases equal
        exact later

theorem require_eq_ok_iff {condition : Prop} [Decidable condition] {e : ε}
    {bytes rest : List UInt8} {done : Unit} :
    require condition e bytes = .ok (done, rest) ↔ condition ∧ rest = bytes := by
  unfold require
  split <;> rename_i holds
  · simp [pure_eq_ok_iff, holds]
  · simp [holds]

theorem require_bind {condition : Prop} [Decidable condition] (holds : condition) (e : ε)
    (next : Unit → Reader ε α) (bytes : List UInt8) :
    (require condition e >>= next) bytes = next () bytes :=
  bind_of_ok (require_eq_ok_iff.mpr ⟨holds, rfl⟩)

/-- A read of `n` bytes returns the first `n` bytes and leaves the others. -/
theorem take_eq_ok_iff {eof : ε} {n : Nat} {value bytes rest : List UInt8} :
    take eof n bytes = .ok (value, rest) ↔ value.length = n ∧ bytes = value ++ rest := by
  unfold take
  split <;> rename_i enough
  · simp only [Except.ok.injEq, Prod.mk.injEq]
    constructor
    · rintro ⟨rfl, rfl⟩
      exact ⟨List.length_take_of_le enough, by simp⟩
    · rintro ⟨rfl, rfl⟩
      simp
  · simp only [reduceCtorEq, false_iff]
    rintro ⟨rfl, rfl⟩
    simp at enough

theorem take_append (eof : ε) {n : Nat} {value : List UInt8} (length : value.length = n)
    (rest : List UInt8) : take eof n (value ++ rest) = .ok (value, rest) :=
  take_eq_ok_iff.mpr ⟨length, rfl⟩

/-! ## Words in network order -/

/-- Store a word in network order: reverse its bytes and store the result. -/
def writeWord {n : Nat} (x : Word n) : List UInt8 :=
  rawBytes (byteOrderSwap x)

/-- Load a word stored in network order. -/
def word (eof : ε) (n : Nat) : Reader ε (Word n) := do
  let raw ← take eof n
  pure (byteOrderSwap (ofRaw raw))

@[simp]
theorem length_writeWord {n : Nat} (x : Word n) : (writeWord x).length = n := by
  simp [writeWord]

theorem word_writeWord (eof : ε) {n : Nat} (x : Word n) (rest : List UInt8) :
    word eof n (writeWord x ++ rest) = .ok (x, rest) := by
  unfold word
  rw [bind_of_ok (take_append eof (length_writeWord x) rest), pure_apply, writeWord,
    ofRaw_rawBytes, byteOrderSwap_byteOrderSwap]

theorem word_eq_ok_iff {eof : ε} {n : Nat} {x : Word n} {bytes rest : List UInt8} :
    word eof n bytes = .ok (x, rest) ↔
      n ≤ bytes.length ∧ x = byteOrderSwap (ofRaw (bytes.take n)) ∧ rest = bytes.drop n := by
  unfold word
  rw [bind_eq_ok_iff]
  constructor
  · rintro ⟨raw, left, taken, made⟩
    rcases take_eq_ok_iff.mp taken with ⟨length, rfl⟩
    rcases pure_eq_ok_iff.mp made with ⟨rfl, rfl⟩
    subst length
    simp
  · rintro ⟨enough, rfl, rfl⟩
    refine ⟨bytes.take n, bytes.drop n, ?_, rfl⟩
    exact take_eq_ok_iff.mpr ⟨List.length_take_of_le enough, by simp⟩

/-! ## Iterated reads -/

/-- Read once for each entry of a list, in order. -/
def forEach (reader : α → Reader ε β) :
    (entries : List α) → Reader ε { results : List β // results.length = entries.length }
  | [] => pure ⟨[], rfl⟩
  | entry :: entries => do
      let result ← reader entry
      let results ← forEach reader entries
      pure ⟨result :: results.1, by simp [results.2]⟩

/-- A property holds of every entry at the bytes its read starts from, as long
as the reads before it succeed. -/
def Visits (reader : α → Reader ε β) (P : α → List UInt8 → Prop) :
    List α → List UInt8 → Prop
  | [], _ => True
  | entry :: entries, bytes =>
      P entry bytes ∧
        ∀ result rest, reader entry bytes = .ok (result, rest) → Visits reader P entries rest

theorem forEach_cons_eq_ok_iff {reader : α → Reader ε β} {entry : α} {entries : List α}
    {bytes rest : List UInt8}
    {output : { results : List β // results.length = (entry :: entries).length }} :
    forEach reader (entry :: entries) bytes = .ok (output, rest) ↔
      ∃ result middle results, reader entry bytes = .ok (result, middle) ∧
        forEach reader entries middle = .ok (results, rest) ∧
        output.1 = result :: results.1 := by
  simp only [forEach, bind_eq_ok_iff, pure_eq_ok_iff]
  constructor
  · rintro ⟨result, middle, first, results, left, later, rfl, rfl⟩
    exact ⟨result, middle, results, first, later, rfl⟩
  · rintro ⟨result, middle, results, first, later, equal⟩
    exact ⟨result, middle, first, results, rest, later, Subtype.ext equal, rfl⟩

theorem visits_cons_iff (reader : α → Reader ε β) {P : α → List UInt8 → Prop} {entry : α}
    {entries : List α} {bytes rest : List UInt8} {result : β}
    (read : reader entry bytes = .ok (result, rest)) :
    Visits reader P (entry :: entries) bytes ↔ P entry bytes ∧ Visits reader P entries rest := by
  simp only [Visits, read, Except.ok.injEq, Prod.mk.injEq]
  constructor
  · rintro ⟨here, onwards⟩
    exact ⟨here, onwards result rest ⟨rfl, rfl⟩⟩
  · rintro ⟨here, onwards⟩
    refine ⟨here, ?_⟩
    rintro _ _ ⟨rfl, rfl⟩
    exact onwards

/-- When every entry is read back from its encoding, the whole list is read
back from the concatenated encodings. -/
theorem forEach_encode (reader : α → Reader ε β) (encode : β → List UInt8)
    {entries : List α} {values : List β} (length : values.length = entries.length)
    (back : ∀ entry ∈ entries, ∀ value ∈ values, ∀ rest,
      reader entry (encode value ++ rest) = .ok (value, rest))
    (rest : List UInt8) :
    forEach reader entries ((values.map encode).flatten ++ rest) =
      .ok (⟨values, length⟩, rest) := by
  induction entries generalizing values with
  | nil =>
      have none := List.length_eq_zero_iff.mp length
      subst none
      rfl
  | cons entry entries ih =>
      cases values with
      | nil => simp at length
      | cons value values =>
          rw [forEach_cons_eq_ok_iff]
          refine ⟨value, (values.map encode).flatten ++ rest,
            ⟨values, by simpa using length⟩, ?_, ?_, rfl⟩
          · rw [List.map_cons, List.flatten_cons, List.append_assoc]
            exact back entry List.mem_cons_self value List.mem_cons_self _
          · exact ih _ fun entry' entryMem value' valueMem =>
              back entry' (List.mem_cons_of_mem _ entryMem) value'
                (List.mem_cons_of_mem _ valueMem)

/-- A value that is never read back as itself spoils the list it belongs to:
the first such value is reached by exact reads. -/
theorem forEach_encode_ne {reader : α → Reader ε β} {encode : β → List UInt8}
    (good : β → Prop) {entries : List α} {values : List β}
    (back : ∀ entry ∈ entries, ∀ value ∈ values, good value → ∀ rest,
      reader entry (encode value ++ rest) = .ok (value, rest))
    (spoiled : ∀ entry ∈ entries, ∀ value ∈ values, ¬ good value → ∀ rest result left,
      reader entry (encode value ++ rest) = .ok (result, left) → result ≠ value)
    (someBad : ∃ value ∈ values, ¬ good value)
    {rest left : List UInt8}
    {output : { results : List β // results.length = entries.length }}
    (run : forEach reader entries ((values.map encode).flatten ++ rest) = .ok (output, left)) :
    output.1 ≠ values := by
  induction entries generalizing values with
  | nil =>
      rintro rfl
      rcases someBad with ⟨value, member, -⟩
      have none := List.length_eq_zero_iff.mp output.2
      simp [none] at member
  | cons entry entries ih =>
      cases values with
      | nil => simp at someBad
      | cons value values =>
          rcases forEach_cons_eq_ok_iff.mp run with ⟨result, middle, results, first, later, equal⟩
          rw [List.map_cons, List.flatten_cons, List.append_assoc] at first
          rw [equal]
          intro same
          injection same with headEq tailEq
          by_cases headGood : good value
          · have read := back entry List.mem_cons_self value List.mem_cons_self headGood
              ((values.map encode).flatten ++ rest)
            rw [read] at first
            cases first
            refine ih (fun entry' entryMem value' valueMem =>
                back entry' (List.mem_cons_of_mem _ entryMem) value'
                  (List.mem_cons_of_mem _ valueMem))
              (fun entry' entryMem value' valueMem =>
                spoiled entry' (List.mem_cons_of_mem _ entryMem) value'
                  (List.mem_cons_of_mem _ valueMem)) ?_ later tailEq
            rcases someBad with ⟨bad, badMem, isBad⟩
            rcases List.mem_cons.mp badMem with here | there
            · subst here
              exact absurd headGood isBad
            · exact ⟨bad, there, isBad⟩
          · exact spoiled entry List.mem_cons_self value List.mem_cons_self headGood _ _ _
              first headEq

/-! ## Consumption -/

/-- Exactly `n` bytes lie between two positions of an input. -/
def Consumes (n : Int) (bytes rest : List UInt8) : Prop :=
  ∃ front, bytes = front ++ rest ∧ (front.length : Int) = n

theorem Consumes.refl (bytes : List UInt8) : Consumes 0 bytes bytes :=
  ⟨[], rfl, rfl⟩

theorem Consumes.trans {m n : Int} {bytes middle rest : List UInt8}
    (first : Consumes m bytes middle) (second : Consumes n middle rest) :
    Consumes (m + n) bytes rest := by
  rcases first with ⟨front, rfl, length⟩
  rcases second with ⟨next, rfl, nextLength⟩
  refine ⟨front ++ next, by rw [List.append_assoc], ?_⟩
  rw [List.length_append]
  omega

/-- What lies between two positions has one length. -/
theorem Consumes.iff_eq {m n : Int} {bytes rest : List UInt8} (known : Consumes m bytes rest) :
    Consumes n bytes rest ↔ n = m := by
  constructor
  · rintro ⟨front, rfl, length⟩
    rcases known with ⟨other, same, otherLength⟩
    rw [List.append_cancel_right same] at length
    omega
  · rintro rfl
    exact known

theorem Consumes.suffix {n : Int} {bytes rest : List UInt8} (known : Consumes n bytes rest) :
    rest <:+ bytes := by
  rcases known with ⟨front, rfl, -⟩
  exact List.suffix_append front rest

theorem Consumes.eq_drop {n : Nat} {bytes rest : List UInt8} (known : Consumes n bytes rest) :
    rest = bytes.drop n := by
  rcases known with ⟨front, rfl, length⟩
  have same : n = front.length := by omega
  rw [same, List.drop_left]

/-- A distance splits at a position between the two. -/
theorem Consumes.sub_iff {m n : Int} {bytes middle rest : List UInt8}
    (first : Consumes m bytes middle) (behind : rest <:+ middle) :
    Consumes n bytes rest ↔ Consumes (n - m) middle rest := by
  rcases behind with ⟨next, rfl⟩
  have known : Consumes next.length (next ++ rest) rest := ⟨next, rfl, rfl⟩
  rw [known.iff_eq, (first.trans known).iff_eq]
  omega

theorem word_consumes {eof : ε} {n : Nat} {x : Word n} {bytes rest : List UInt8}
    (read : word eof n bytes = .ok (x, rest)) : Consumes n bytes rest := by
  rcases word_eq_ok_iff.mp read with ⟨enough, -, rfl⟩
  exact ⟨bytes.take n, (List.take_append_drop n bytes).symm, by simp [enough]⟩

/-- The reader never leaves more than it was given. -/
def Forward (reader : Reader ε α) : Prop :=
  ∀ bytes value rest, reader bytes = .ok (value, rest) → rest <:+ bytes

theorem Forward.pure (value : α) : Forward (pure value : Reader ε α) := by
  intro bytes result rest read
  rcases pure_eq_ok_iff.mp read with ⟨-, rfl⟩
  exact List.suffix_rfl

theorem Forward.fail (e : ε) : Forward (fail e : Reader ε α) := by
  intro bytes result rest read
  cases read

theorem Forward.require (condition : Prop) [Decidable condition] (e : ε) :
    Forward (require condition e) := by
  intro bytes result rest read
  rcases require_eq_ok_iff.mp read with ⟨-, rfl⟩
  exact List.suffix_rfl

theorem Forward.bind {reader : Reader ε α} {next : α → Reader ε β} (first : Forward reader)
    (second : ∀ value, Forward (next value)) : Forward (reader >>= next) := by
  intro bytes result rest read
  rcases bind_eq_ok_iff.mp read with ⟨value, middle, head, tail⟩
  exact (second value _ _ _ tail).trans (first _ _ _ head)

theorem Forward.forEach {reader : α → Reader ε β} (each : ∀ entry, Forward (reader entry))
    (entries : List α) : Forward (forEach reader entries) := by
  induction entries with
  | nil => exact Forward.pure _
  | cons entry entries ih =>
      exact Forward.bind (each entry) fun _ => Forward.bind ih fun _ => Forward.pure _

end Reader

end Bozo.Bytes
