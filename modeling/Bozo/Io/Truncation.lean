import Bozo.Bytes.SelfDelimiting
import Bozo.Io.RoundTrip

/-!
# Input that is cut off

The receive functions read as many bytes as the ones before tell them to.  What
stands behind an object is never looked at, and an input that ends inside an
object is reported as such: never as another error, and never as a value.
-/

namespace Bozo.Io

open Bozo.Bytes
open Bozo.Bytes.Reader

/-! ## Scalars -/

theorem readByte_selfDelimiting : SelfDelimiting .unexpectedEof readByte := by
  intro bytes value rest read
  cases bytes with
  | nil => cases read
  | cons b bytes =>
      cases read
      refine ⟨[value], rfl, fun more => rfl, fun short part proper => ?_⟩
      rcases List.prefix_cons_iff.mp part with rfl | ⟨tail, rfl, nothing⟩
      · rfl
      · rw [List.prefix_nil.mp nothing] at proper
        exact absurd rfl proper

theorem readWord_selfDelimiting (n : Nat) : SelfDelimiting .unexpectedEof (readWord n) :=
  SelfDelimiting.word n

theorem readInt32_selfDelimiting : SelfDelimiting .unexpectedEof readInt32 :=
  SelfDelimiting.bind (readWord_selfDelimiting 4) fun _ => SelfDelimiting.pure _

theorem readInt64_selfDelimiting : SelfDelimiting .unexpectedEof readInt64 :=
  SelfDelimiting.bind (readWord_selfDelimiting 8) fun _ => SelfDelimiting.pure _

theorem readBytes_selfDelimiting (n : Nat) : SelfDelimiting .unexpectedEof (readBytes n) := by
  intro bytes value rest read
  rcases value with ⟨value, length⟩
  have split : bytes = value ++ rest := by
    unfold readBytes at read
    split at read
    · cases read
      exact (List.take_append_drop n bytes).symm
    · cases read
  refine ⟨value, split, readBytes_append value length, fun short part proper => ?_⟩
  have shorter : ¬ n ≤ short.length := by
    intro enough
    exact proper (part.eq_of_length_le (Nat.le_trans (Nat.le_of_eq length) enough))
  exact dif_neg shorter

theorem readInterval_selfDelimiting : SelfDelimiting .unexpectedEof readInterval :=
  SelfDelimiting.bind readInt64_selfDelimiting fun _ =>
    SelfDelimiting.bind readInt32_selfDelimiting fun _ =>
      SelfDelimiting.bind readInt32_selfDelimiting fun _ => SelfDelimiting.pure _

theorem recvWord_selfDelimiting (n : Nat) (size : Int) :
    SelfDelimiting .unexpectedEof (recvWord n size) :=
  SelfDelimiting.bind (SelfDelimiting.require _ _) fun _ => readWord_selfDelimiting n

theorem recvString_selfDelimiting (size : Int) :
    SelfDelimiting .unexpectedEof (recvString size) :=
  SelfDelimiting.bind (SelfDelimiting.require _ _) fun _ =>
    SelfDelimiting.bind (readBytes_selfDelimiting _) fun _ => SelfDelimiting.pure _

theorem recvVersioned_selfDelimiting (type : Scalar) (size : Int) :
    SelfDelimiting .unexpectedEof (recvVersioned type size) :=
  SelfDelimiting.bind (SelfDelimiting.require _ _) fun _ =>
    SelfDelimiting.bind readByte_selfDelimiting fun _ => recvString_selfDelimiting _

theorem Scalar.recv_selfDelimiting (s : Scalar) (size : Int) :
    SelfDelimiting .unexpectedEof (s.recv size) := by
  cases s with
  | bool =>
      exact SelfDelimiting.bind (SelfDelimiting.require _ _) fun _ =>
        SelfDelimiting.bind readByte_selfDelimiting fun _ => SelfDelimiting.pure _
  | char =>
      exact SelfDelimiting.bind (SelfDelimiting.require _ _) fun _ => readByte_selfDelimiting
  | int2 => exact recvWord_selfDelimiting 2 size
  | int4 | oid | float4 => exact recvWord_selfDelimiting 4 size
  | int8 | float8 => exact recvWord_selfDelimiting 8 size
  | uuid => exact readBytes_selfDelimiting 16
  | interval =>
      exact SelfDelimiting.bind readInterval_selfDelimiting fun _ => SelfDelimiting.pure _
  | timestamp =>
      exact SelfDelimiting.bind readInt64_selfDelimiting fun _ => SelfDelimiting.pure _
  | text | bytea | name | json => exact recvString_selfDelimiting size
  | jsonb => exact recvVersioned_selfDelimiting .jsonb size
  | ltree => exact recvVersioned_selfDelimiting .ltree size

/-! ## Arrays and composites -/

theorem recvArrayHeader_selfDelimiting (map : OidMap) (element : Slot) :
    SelfDelimiting .unexpectedEof (recvArrayHeader map element) := by
  refine SelfDelimiting.bind readInt32_selfDelimiting fun dimensions =>
    SelfDelimiting.bind readInt32_selfDelimiting fun _ =>
      SelfDelimiting.bind (readWord_selfDelimiting 4) fun _ =>
        SelfDelimiting.bind (SelfDelimiting.require _ _) fun _ =>
          SelfDelimiting.bind (SelfDelimiting.require _ _) fun _ => ?_
  split
  · exact SelfDelimiting.pure _
  · refine SelfDelimiting.bind readInt32_selfDelimiting fun size =>
      SelfDelimiting.bind readInt32_selfDelimiting fun _ => ?_
    split
    · exact SelfDelimiting.pure _
    · exact SelfDelimiting.pure _

theorem fitArraySize_selfDelimiting {α : Type} (fresh : α) (count : Int) (bound : Option Nat)
    (out : Container bound α) :
    SelfDelimiting .unexpectedEof (fitArraySize fresh count bound out) := by
  cases bound with
  | none => exact SelfDelimiting.bind (SelfDelimiting.require _ _) fun _ => SelfDelimiting.pure _
  | some n => exact SelfDelimiting.bind (SelfDelimiting.require _ _) fun _ => SelfDelimiting.pure _

theorem recvElements_selfDelimiting {α : Type} {bound : Option Nat} (fresh : α)
    {receive : α → Reader RecvError α}
    (each : ∀ item, SelfDelimiting .unexpectedEof (receive item)) (out : Container bound α)
    (count : Option Int) :
    SelfDelimiting .unexpectedEof (recvElements fresh receive out count) := by
  cases count with
  | none => exact SelfDelimiting.pure _
  | some count =>
      exact SelfDelimiting.bind (fitArraySize_selfDelimiting fresh count bound out) fun fitted =>
        SelfDelimiting.bind (SelfDelimiting.forEach each fitted.items) fun _ =>
          SelfDelimiting.pure _

theorem checkOid_selfDelimiting (map : OidMap) (type : Ty) (oid : Option Oid) :
    SelfDelimiting .unexpectedEof (checkOid map type oid) := by
  cases oid with
  | none => exact SelfDelimiting.pure _
  | some oid => exact SelfDelimiting.require _ _

theorem recvSized_selfDelimiting {α : Type} {receive : Int → Reader RecvError α}
    (each : ∀ size, SelfDelimiting .unexpectedEof (receive size)) :
    SelfDelimiting .unexpectedEof (recvSized receive) :=
  SelfDelimiting.bind readInt32_selfDelimiting each

mutual

theorem Ty.recvImpl_selfDelimiting (map : OidMap) : (t : Ty) → (size : Int) → (out : t.Val) →
    SelfDelimiting .unexpectedEof (t.recvImpl map size out)
  | .scalar s, size, _ => s.recv_selfDelimiting size
  | .array _ element, _, out =>
      SelfDelimiting.bind (recvArrayHeader_selfDelimiting map element) fun count =>
        recvElements_selfDelimiting element.default
          (fun item => recvSized_selfDelimiting fun size =>
            element.recv_selfDelimiting map none size item)
          out count
  | .composite _ fields, _, out =>
      SelfDelimiting.bind
        (SelfDelimiting.bind readInt32_selfDelimiting fun _ => SelfDelimiting.require _ _)
        fun _ => fields.recvFrames_selfDelimiting map out

theorem Slot.recv_selfDelimiting (map : OidMap) (oid : Option Oid) : (s : Slot) → (size : Int) →
    (out : s.Val) → SelfDelimiting .unexpectedEof (s.recv map oid size out)
  | .plain type, size, out =>
      SelfDelimiting.bind (checkOid_selfDelimiting map type oid) fun _ =>
        SelfDelimiting.bind (SelfDelimiting.require _ _) fun _ =>
          type.recvImpl_selfDelimiting map size out
  | .nullable type, size, out => by
      have received : SelfDelimiting .unexpectedEof (recvNullable map type oid size
          (type.recvImpl map size (Option.getD out type.default))) := by
        unfold recvNullable
        split
        · exact SelfDelimiting.pure _
        · exact SelfDelimiting.bind (checkOid_selfDelimiting map type oid) fun _ =>
            SelfDelimiting.bind (type.recvImpl_selfDelimiting map size _) fun _ =>
              SelfDelimiting.pure _
      exact received
  | .null, _, _ => SelfDelimiting.fail _

theorem Fields.recvFrames_selfDelimiting (map : OidMap) : (fields : Fields) →
    (out : fields.Val) → SelfDelimiting .unexpectedEof (fields.recvFrames map out)
  | .nil, _ => SelfDelimiting.pure _
  | .cons head tail, out =>
      SelfDelimiting.bind
        (SelfDelimiting.bind (readWord_selfDelimiting 4) fun oid =>
          recvSized_selfDelimiting fun size =>
            head.recv_selfDelimiting map (some oid) size out.1)
        fun _ =>
          SelfDelimiting.bind (tail.recvFrames_selfDelimiting map out.2) fun _ =>
            SelfDelimiting.pure _

end

theorem Slot.recvFrame_selfDelimiting (map : OidMap) (s : Slot) (out : s.Val) :
    SelfDelimiting .unexpectedEof (s.recvFrame map out) :=
  SelfDelimiting.bind (readWord_selfDelimiting 4) fun oid =>
    recvSized_selfDelimiting fun size => s.recv_selfDelimiting map (some oid) size out

/-! ## Frames -/

/-- A frame that is received tells where it ends: it is received as the same
with anything behind it, and whatever ends before it does fails with the end of
the input. -/
theorem recvFrame_cut (map : OidMap) (s : Slot) (out v : s.Val) (bytes rest : List UInt8)
    (received : s.recvFrame map out bytes = .ok (v, rest)) :
    ∃ used, bytes = used ++ rest ∧
      (∀ more, s.recvFrame map out (used ++ more) = .ok (v, more)) ∧
      ∀ short, short <+: used → short ≠ used →
        s.recvFrame map out short = .error .unexpectedEof := by
  rcases s.recvFrame_selfDelimiting map out bytes v rest received with ⟨used, split, delimits⟩
  exact ⟨used, split, delimits.append, delimits.cut⟩

/-- The frame of an array of one short, and a byte behind it. -/
def shortsAndMore : List UInt8 :=
  [0, 0, 3, 237, 0, 0, 0, 26, 0, 0, 0, 1, 0, 0, 0, 0, 0, 0, 0, 21, 0, 0, 0, 1, 0, 0, 0, 1,
    0, 0, 0, 2, 0, 7, 9]

theorem recvFrame_cut_shortsAndMore :
    ∃ used, shortsAndMore = used ++ [9] ∧
      (∀ more, (Slot.plain (.array none (.plain (.scalar .int2)))).recvFrame (fun _ => 0)
        (Slot.plain (.array none (.plain (.scalar .int2)))).default (used ++ more) =
          .ok (⟨[(7 : Word 2)], by simp⟩, more)) ∧
      ∀ short, short <+: used → short ≠ used →
        (Slot.plain (.array none (.plain (.scalar .int2)))).recvFrame (fun _ => 0)
          (Slot.plain (.array none (.plain (.scalar .int2)))).default short =
            .error .unexpectedEof :=
  recvFrame_cut (fun _ => 0) (.plain (.array none (.plain (.scalar .int2)))) _ _ shortsAndMore [9]
    rfl

/-- The values whose frames are received as they were sent. -/
structure Slot.Returns (map : OidMap) (s : Slot) (v : s.Val) : Prop where
  short : (s.send map v).length < 2 ^ 31
  notNull : s.Everywhere Slot.SizeNotNull v

theorem Slot.Returns.recvFrame {map : OidMap} {s : Slot} {v : s.Val} (returns : s.Returns map v)
    (exactly : s.exactlyReceivable = true) (rest : List UInt8) :
    s.recvFrame map s.default (s.sendFrame map v ++ rest) = .ok (v, rest) := by
  rw [Slot.recvFrame, Slot.sendFrame, recvTyped_frame, s.int32_sizeOf]
  exact s.recv_send map exactly v returns.short returns.notNull _ rest
    fun sent same => Option.some.inj same

/-- The frames of a type are a prefix code: none is the beginning of that of
another value. -/
theorem sendFrame_isPrefix_iff (map : OidMap) (s : Slot) (exactly : s.exactlyReceivable = true)
    (v w : s.Val) (first : s.Returns map v) (second : s.Returns map w) :
    s.sendFrame map v <+: s.sendFrame map w ↔ v = w := by
  have firstRead := first.recvFrame exactly []
  have secondRead := second.recvFrame exactly []
  rw [List.append_nil] at firstRead secondRead
  exact (s.recvFrame_selfDelimiting map s.default).isPrefix_iff firstRead secondRead

/-- The frame of a text is not the beginning of that of a longer one. -/
theorem sendFrame_isPrefix_text :
    (Slot.plain (.scalar .text)).sendFrame (fun _ => 0) ([7] : List UInt8) <+:
        (Slot.plain (.scalar .text)).sendFrame (fun _ => 0) ([7, 9] : List UInt8) ↔
      ([7] : List UInt8) = [7, 9] :=
  sendFrame_isPrefix_iff (fun _ => 0) (.plain (.scalar .text)) rfl ([7] : List UInt8)
    ([7, 9] : List UInt8) ⟨by decide, fun _ => by decide, trivial⟩
    ⟨by decide, fun _ => by decide, trivial⟩

end Bozo.Io
