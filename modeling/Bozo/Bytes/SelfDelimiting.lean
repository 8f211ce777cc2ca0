import Bozo.Bytes.Reader

/-!
# Self-delimiting readers

A self-delimiting reader decides by the bytes it consumes alone.  Whatever
follows them is left as it is, and a reader that does not get all of them fails
with the end of the input, not with anything else.
-/

namespace Bozo.Bytes.Reader

variable {ε α β : Type}

/-- The reader takes `used` for a value: with anything behind it, and not with a
byte less. -/
structure Delimits (eof : ε) (reader : Reader ε α) (value : α) (used : List UInt8) : Prop where
  append : ∀ more, reader (used ++ more) = .ok (value, more)
  cut : ∀ short, short <+: used → short ≠ used → reader short = .error eof

/-- Whatever the reader succeeds on, the bytes it consumes delimit themselves. -/
def SelfDelimiting (eof : ε) (reader : Reader ε α) : Prop :=
  ∀ bytes value rest, reader bytes = .ok (value, rest) →
    ∃ used, bytes = used ++ rest ∧ Delimits eof reader value used

theorem bind_of_error {reader : Reader ε α} {next : α → Reader ε β} {e : ε} {bytes : List UInt8}
    (failed : reader bytes = .error e) : (reader >>= next) bytes = .error e := by
  simp only [bind, failed]

/-- A part of two words is cut in the first or in the second of them. -/
theorem cut_append {short first second : List UInt8} (part : short <+: first ++ second)
    (proper : short ≠ first ++ second) :
    (short <+: first ∧ short ≠ first) ∨
      ∃ tail, short = first ++ tail ∧ tail <+: second ∧ tail ≠ second := by
  rcases List.prefix_or_prefix_of_prefix part (List.prefix_append first second) with
    inside | ⟨tail, rfl⟩
  · by_cases whole : short = first
    · subst whole
      refine .inr ⟨[], (List.append_nil _).symm, List.nil_prefix, ?_⟩
      rintro rfl
      exact proper (List.append_nil _).symm
    · exact .inl ⟨inside, whole⟩
  · refine .inr ⟨tail, rfl, (List.prefix_append_right_inj first).mp part, ?_⟩
    rintro rfl
    exact proper rfl

section Rules

variable {eof : ε}

theorem SelfDelimiting.pure (value : α) : SelfDelimiting eof (pure value : Reader ε α) := by
  intro bytes result rest read
  rcases pure_eq_ok_iff.mp read with ⟨rfl, rfl⟩
  refine ⟨[], rfl, fun more => rfl, fun short part proper => ?_⟩
  exact absurd (List.prefix_nil.mp part) proper

theorem SelfDelimiting.fail (e : ε) : SelfDelimiting eof (fail e : Reader ε α) := by
  intro bytes result rest read
  cases read

theorem SelfDelimiting.require (condition : Prop) [Decidable condition] (e : ε) :
    SelfDelimiting eof (require condition e) := by
  unfold Reader.require
  split
  · exact SelfDelimiting.pure ()
  · exact SelfDelimiting.fail e

theorem SelfDelimiting.bind {reader : Reader ε α} {next : α → Reader ε β}
    (first : SelfDelimiting eof reader) (second : ∀ value, SelfDelimiting eof (next value)) :
    SelfDelimiting eof (reader >>= next) := by
  intro bytes result rest read
  rcases bind_eq_ok_iff.mp read with ⟨value, middle, head, tail⟩
  rcases first _ _ _ head with ⟨used, rfl, here⟩
  rcases second value _ _ _ tail with ⟨others, rfl, behind⟩
  refine ⟨used ++ others, (List.append_assoc ..).symm, fun more => ?_, fun short part proper => ?_⟩
  · rw [List.append_assoc, bind_of_ok (here.append _)]
    exact behind.append more
  · rcases cut_append part proper with ⟨inside, notWhole⟩ | ⟨left, rfl, inside, notWhole⟩
    · exact bind_of_error (here.cut short inside notWhole)
    · rw [bind_of_ok (here.append left)]
      exact behind.cut left inside notWhole

theorem SelfDelimiting.take (n : Nat) : SelfDelimiting eof (take eof n) := by
  intro bytes value rest read
  rcases take_eq_ok_iff.mp read with ⟨length, rfl⟩
  refine ⟨value, rfl, take_append eof length, fun short part proper => ?_⟩
  have shorter : ¬ n ≤ short.length := by
    intro enough
    exact proper (part.eq_of_length_le (Nat.le_trans (Nat.le_of_eq length) enough))
  exact if_neg shorter

theorem SelfDelimiting.word (n : Nat) : SelfDelimiting eof (word eof n) :=
  SelfDelimiting.bind (SelfDelimiting.take n) fun _ => SelfDelimiting.pure _

theorem SelfDelimiting.forEach {reader : α → Reader ε β}
    (each : ∀ entry, SelfDelimiting eof (reader entry)) (entries : List α) :
    SelfDelimiting eof (forEach reader entries) := by
  induction entries with
  | nil => exact SelfDelimiting.pure _
  | cons entry entries ih =>
      exact SelfDelimiting.bind (each entry) fun _ =>
        SelfDelimiting.bind ih fun _ => SelfDelimiting.pure _

end Rules

/-- The encodings that a self-delimiting reader reads back are a prefix code. -/
theorem SelfDelimiting.isPrefix_iff {eof : ε} {reader : Reader ε α}
    (delimiting : SelfDelimiting eof reader) {encode : α → List UInt8} {left right : α}
    (leftRead : reader (encode left) = .ok (left, []))
    (rightRead : reader (encode right) = .ok (right, [])) :
    encode left <+: encode right ↔ left = right := by
  constructor
  · intro part
    rcases delimiting _ _ _ rightRead with ⟨used, same, delimits⟩
    rw [List.append_nil] at same
    subst same
    by_cases whole : encode left = encode right
    · rw [whole, rightRead] at leftRead
      injection leftRead with both
      exact (congrArg Prod.fst both).symm
    · rw [delimits.cut _ part whole] at leftRead
      cases leftRead
  · rintro rfl
    exact List.prefix_rfl

end Bozo.Bytes.Reader
