import Bozo.Io.Recv
import Bozo.Io.SizeAgreement

/-!
# Receiving what was sent

A frame that was sent is received as the same value, and the input is left
behind the frame.  Arrays and composites do not look at the size announced for
them, so a miscounted array is still received.  What spoils a frame is an
announced size that happens to be the one that stands for null.
-/

namespace Bozo.Io

open Bozo.Bytes
open Bozo.Bytes.Reader

/-! ## Reading what was written -/

theorem readWord_writeWord {n : Nat} (x : Word n) (rest : List UInt8) :
    readWord n (writeWord x ++ rest) = .ok (x, rest) :=
  word_writeWord RecvError.unexpectedEof x rest

theorem readInt32_writeInt32 (x : Int) (rest : List UInt8) :
    readInt32 (writeInt32 x ++ rest) = .ok (int32 x, rest) := by
  rw [readInt32, writeInt32, bind_of_ok (readWord_writeWord _ rest), pure_apply,
    toInt_ofInt_int32]

theorem readInt64_writeInt64 {x : Int} (lower : Checked.int64Min ≤ x)
    (upper : x ≤ Checked.int64Max) (rest : List UInt8) :
    readInt64 (writeInt64 x ++ rest) = .ok (x, rest) := by
  rw [readInt64, writeInt64, bind_of_ok (readWord_writeWord _ rest), pure_apply,
    Checked.toInt_ofInt_word lower upper]

theorem readBytes_append {n : Nat} (bytes : List UInt8) (length : bytes.length = n)
    (rest : List UInt8) : readBytes n (bytes ++ rest) = .ok (⟨bytes, length⟩, rest) := by
  subst length
  simp [readBytes]

theorem recvSized_dataFrame {α : Type} (receive : Int → Reader RecvError α) (size : Int)
    (payload rest : List UInt8) :
    recvSized receive (dataFrame size payload ++ rest) =
      receive (int32 size) (payload ++ rest) := by
  rw [recvSized, dataFrame, List.append_assoc, bind_of_ok (readInt32_writeInt32 size _)]

theorem recvTyped_frame {α : Type} (receive : Option Oid → Int → Reader RecvError α) (oid : Oid)
    (size : Int) (payload rest : List UInt8) :
    recvTyped receive (frame oid size payload ++ rest) =
      receive (some oid) (int32 size) (payload ++ rest) := by
  rw [recvTyped, frame, List.append_assoc, bind_of_ok (readWord_writeWord oid _),
    recvSized_dataFrame]

/-! ## Scalars -/

theorem recvWord_writeWord {n : Nat} (x : Word n) (rest : List UInt8) :
    recvWord n n (writeWord x ++ rest) = .ok (x, rest) := by
  rw [recvWord, requireSize, require_bind rfl]
  exact readWord_writeWord x rest

theorem readInterval_writeInterval (interval : PgInterval)
    (lower : Checked.int64Min ≤ interval.microseconds)
    (upper : interval.microseconds ≤ Checked.int64Max)
    (days : int32 interval.days = interval.days) (months : int32 interval.months = interval.months)
    (rest : List UInt8) :
    readInterval (writeInterval interval ++ rest) = .ok (interval, rest) := by
  rw [readInterval, writeInterval, List.append_assoc, List.append_assoc,
    bind_of_ok (readInt64_writeInt64 lower upper _), bind_of_ok (readInt32_writeInt32 _ _),
    bind_of_ok (readInt32_writeInt32 _ _), pure_apply, days, months]

theorem recvString_append (bytes rest : List UInt8) :
    recvString bytes.length (bytes ++ rest) = .ok (bytes, rest) := by
  rw [recvString, require_bind (Int.natCast_nonneg _),
    bind_of_ok (readBytes_append bytes (by simp) rest), pure_apply]

theorem recvVersioned_append (type : Scalar) (bytes rest : List UInt8) :
    recvVersioned type (bytes.length + 1) (1 :: bytes ++ rest) = .ok (bytes, rest) := by
  have version : readByte (1 :: bytes ++ rest) = .ok (1, bytes ++ rest) := rfl
  rw [recvVersioned, require_bind (by omega), bind_of_ok version, Int.add_sub_cancel]
  exact recvString_append bytes rest

theorem recvInterval_writeInterval (v : Word 8) (rest : List UInt8) :
    recvInterval (writeInterval (fromChronoDuration v.toInt) ++ rest) = .ok (v, rest) := by
  rcases Checked.toInt_word_bounds v with ⟨lower, upper⟩
  have surplus := tmod_usecsPerDay_bounds v.toInt
  have read := readInterval_writeInterval (fromChronoDuration v.toInt)
    (by simp only [fromChronoDuration, Checked.int64Min]; omega)
    (by simp only [fromChronoDuration, Checked.int64Max]; omega)
    (int32_int32 _) rfl rest
  have back : BitVec.ofInt (8 * 8) (pure v.toInt : Checked Int).value = v :=
    BitVec.ofInt_toInt
  rw [recvInterval, bind_of_ok read, pure_apply, toChronoDuration_fromChronoDuration lower upper,
    back]

/-- Every scalar but the timestamp is received from what was sent for it. -/
theorem Scalar.recv_send (s : Scalar) (exactly : s ≠ .timestamp) (v : s.Val)
    (rest : List UInt8) : s.recv (s.sizeOf v) (s.send v ++ rest) = .ok (v, rest) := by
  cases s with
  | bool =>
      cases v <;> rfl
  | char => rfl
  | int2 => exact recvWord_writeWord (n := 2) v rest
  | int4 | oid | float4 => exact recvWord_writeWord (n := 4) v rest
  | int8 | float8 => exact recvWord_writeWord (n := 8) v rest
  | uuid => exact readBytes_append v.1 v.2 rest
  | interval => exact recvInterval_writeInterval v rest
  | timestamp => exact absurd rfl exactly
  | text | bytea | name | json => exact recvString_append v rest
  | jsonb => exact recvVersioned_append .jsonb v rest
  | ltree => exact recvVersioned_append .ltree v rest

/-! ## Arrays -/

theorem recvArrayHeader_sendArrayHeader (map : OidMap) (element : Slot) {count : Nat}
    (upper : count < 2 ^ 31) (rest : List UInt8) :
    recvArrayHeader map element (sendArrayHeader (element.typeOid map) count ++ rest) =
      .ok (if count = 0 then none else some (count : Int), rest) := by
  have exactly : int32 count = count := int32_natCast upper
  rw [recvArrayHeader, sendArrayHeader]
  simp only [List.append_assoc]
  rw [bind_of_ok (readInt32_writeInt32 1 _), bind_of_ok (readInt32_writeInt32 0 _),
    bind_of_ok (readWord_writeWord (n := 4) _ _), require_bind (by decide), require_bind rfl,
    if_neg (by decide), bind_of_ok (readInt32_writeInt32 _ _),
    bind_of_ok (readInt32_writeInt32 0 _), int32_int32, exactly]
  by_cases empty : count = 0
  · rw [if_pos (by omega), if_pos empty]
    rfl
  · rw [if_neg (by omega), if_neg empty]
    rfl

section Elements

variable {α : Type} {bound : Option Nat} {fresh : α}

theorem Container.default_eq_of_nil (c : Container bound α) (empty : c.items = []) :
    Container.default bound fresh = c := by
  apply Container.ext
  rw [empty, Container.default]
  cases bound with
  | none => rfl
  | some n =>
      have length := c.length_eq n rfl
      rw [empty, List.length_nil] at length
      subst length
      rfl

/-- A default-constructed container is fitted to the number of elements of any
container of its type, and then holds fresh elements only. -/
theorem fitArraySize_default (fresh : α) (c : Container bound α) (upper : c.items.length < 2 ^ 31)
    (bytes : List UInt8) :
    ∃ fitted : Container bound α,
      fitArraySize fresh c.items.length bound (Container.default bound fresh) bytes =
          .ok (fitted, bytes) ∧
        fitted.items = List.replicate c.items.length fresh := by
  cases bound with
  | none =>
      refine ⟨⟨resize fresh [] c.items.length, by simp⟩, ?_, ?_⟩
      · rw [fitArraySize, require_bind (by omega)]
        rfl
      · simp [resize]
  | some n =>
      have length := c.length_eq n rfl
      have exactly : int32 n = n := int32_natCast (by omega)
      refine ⟨Container.default (some n) fresh, ?_, ?_⟩
      · rw [fitArraySize, require_bind (by rw [exactly, length])]
        rfl
      · rw [length]
        rfl

variable {receive : α → Reader RecvError α} {encode : α → List UInt8}

theorem recvElements_encode (c : Container bound α) (upper : c.items.length < 2 ^ 31)
    (back : ∀ value ∈ c.items, ∀ rest, receive fresh (encode value ++ rest) = .ok (value, rest))
    (rest : List UInt8) :
    recvElements fresh receive (Container.default bound fresh) (some c.items.length)
        ((c.items.map encode).flatten ++ rest) = .ok (c, rest) := by
  obtain ⟨fitted, fit, items⟩ := fitArraySize_default fresh c upper
    ((c.items.map encode).flatten ++ rest)
  have length : c.items.length = fitted.items.length := by simp [items]
  have read := forEach_encode receive encode length
    (fun entry entryMem value valueMem => by
      rw [items] at entryMem
      rw [List.eq_of_mem_replicate entryMem]
      exact back value valueMem) rest
  rw [recvElements, bind_of_ok fit, bind_of_ok read]
  rfl

theorem recvElements_encode_ne (good : α → Prop) (c : Container bound α)
    (upper : c.items.length < 2 ^ 31)
    (back : ∀ value ∈ c.items, good value → ∀ rest,
      receive fresh (encode value ++ rest) = .ok (value, rest))
    (spoiled : ∀ value ∈ c.items, ¬ good value → ∀ rest result left,
      receive fresh (encode value ++ rest) = .ok (result, left) → result ≠ value)
    (someBad : ∃ value ∈ c.items, ¬ good value) {rest left : List UInt8}
    {result : Container bound α}
    (read : recvElements fresh receive (Container.default bound fresh) (some c.items.length)
        ((c.items.map encode).flatten ++ rest) = .ok (result, left)) :
    result ≠ c := by
  obtain ⟨fitted, fit, items⟩ := fitArraySize_default fresh c upper
    ((c.items.map encode).flatten ++ rest)
  rw [recvElements, bind_of_ok fit, bind_eq_ok_iff] at read
  rcases read with ⟨results, _, run, made⟩
  rcases pure_eq_ok_iff.mp made with ⟨rfl, rfl⟩
  have isFresh : ∀ entry ∈ fitted.items, entry = fresh := by
    intro entry member
    rw [items] at member
    exact List.eq_of_mem_replicate member
  have differ := forEach_encode_ne good
    (fun entry entryMem value valueMem => by
      rw [isFresh entry entryMem]
      exact back value valueMem)
    (fun entry entryMem value valueMem => by
      rw [isFresh entry entryMem]
      exact spoiled value valueMem)
    someBad run
  intro same
  exact differ (congrArg Container.items same)

end Elements

/-! ## Frames -/

mutual

/-- Whether a type can be received and the received value is exact: every type
but the null pseudo-type and the timestamp, whose ticks are finer than what is
sent. -/
def Ty.exactlyReceivable : Ty → Bool
  | .scalar s => decide (s ≠ .timestamp)
  | .array _ element => element.exactlyReceivable
  | .composite _ fields => fields.exactlyReceivable

def Slot.exactlyReceivable : Slot → Bool
  | .plain type | .nullable type => type.exactlyReceivable
  | .null => false

def Fields.exactlyReceivable : Fields → Bool
  | .nil => true
  | .cons head tail => head.exactlyReceivable && tail.exactlyReceivable

end

/-- The computed size of a non-null value is not the one that stands for
null. -/
def Slot.SizeNotNull (s : Slot) (v : s.Val) : Prop :=
  s.isNull v = false → s.sizeOf v ≠ nullStateSize

theorem Slot.int32_sizeOf (s : Slot) (v : s.Val) : int32 (s.sizeOf v) = s.sizeOf v := by
  cases s with
  | plain type => simp only [Slot.sizeOf, int32_int32]
  | nullable type =>
      cases v with
      | none =>
          simp only [Slot.sizeOf]
          rfl
      | some v => simp only [Slot.sizeOf, int32_int32]
  | null =>
      simp only [Slot.sizeOf]
      rfl

theorem checkOid_bind {α : Type} {map : OidMap} {type : Ty} {oid : Option Oid}
    (accepted : ∀ sent, oid = some sent → type.typeOid map = sent)
    (next : Unit → Reader RecvError α) (bytes : List UInt8) :
    (checkOid map type oid >>= next) bytes = next () bytes := by
  cases oid with
  | none => rfl
  | some sent => exact require_bind (accepted sent rfl) _ next bytes

section Slots

variable {α : Type} {map : OidMap} {type : Ty} {oid : Option Oid} {size : Int}
  {receive : Reader RecvError α}

theorem recvPlain_apply (accepted : ∀ sent, oid = some sent → type.typeOid map = sent)
    (announced : size ≠ nullStateSize) (bytes : List UInt8) :
    recvPlain map type oid size receive bytes = receive bytes := by
  rw [recvPlain, checkOid_bind accepted, require_bind announced]

theorem recvPlain_nullStateSize (bytes : List UInt8) (result : α × List UInt8) :
    recvPlain map type oid nullStateSize receive bytes ≠ .ok result := by
  intro read
  rcases bind_eq_ok_iff.mp read with ⟨_, _, _, read⟩
  rcases bind_eq_ok_iff.mp read with ⟨_, _, required, _⟩
  exact (require_eq_ok_iff.mp required).1 rfl

theorem recvNullable_apply (accepted : ∀ sent, oid = some sent → type.typeOid map = sent)
    (announced : size ≠ nullStateSize) (bytes : List UInt8) :
    recvNullable map type oid size receive bytes =
      (receive >>= fun value => pure (some value)) bytes := by
  rw [recvNullable, if_neg announced, checkOid_bind accepted]

theorem recvNullable_nullStateSize (bytes : List UInt8) :
    recvNullable map type oid nullStateSize receive bytes = .ok (none, bytes) :=
  rfl

end Slots

section RoundTrip

variable (map : OidMap)

theorem Ty.recvImpl_scalar (s : Scalar) (exactly : (Ty.scalar s).exactlyReceivable = true)
    (v : s.Val) (upper : ((Ty.scalar s).sendImpl map v).length < 2 ^ 31) (rest : List UInt8) :
    (Ty.scalar s).recvImpl map (int32 ((Ty.scalar s).sizeOfImpl v)) (Ty.scalar s).default
      ((Ty.scalar s).sendImpl map v ++ rest) = .ok (v, rest) := by
  have length := s.length_send v
  have read := s.recv_send (by simpa [Ty.exactlyReceivable] using exactly) v rest
  have inRange : int32 (s.sizeOf v) = s.sizeOf v := by
    simp only [Ty.sendImpl] at upper
    exact int32_eq_self (by omega) (by omega)
  rw [← inRange] at read
  exact read

/-- What follows the headers of an array that was sent. -/
theorem Ty.recvImpl_array {bound : Option Nat} {element : Slot} (v : Container bound element.Val)
    (upper : v.items.length < 2 ^ 31) (size : Int) (rest : List UInt8) :
    (Ty.array bound element).recvImpl map size (Ty.array bound element).default
        ((Ty.array bound element).sendImpl map v ++ rest) =
      recvElements element.default
        (fun item => recvSized fun size => element.recv map none size item)
        (Container.default bound element.default)
        (if v.items.length = 0 then none else some (v.items.length : Int))
        ((v.items.map fun item =>
          dataFrame (element.sizeOf item) (element.send map item)).flatten ++ rest) := by
  have header := recvArrayHeader_sendArrayHeader map element upper
    ((v.items.map fun item => dataFrame (element.sizeOf item) (element.send map item)).flatten
      ++ rest)
  simp only [Ty.recvImpl, Ty.sendImpl, Ty.default, List.append_assoc]
  rw [bind_of_ok header]

theorem Ty.recvImpl_array_eq {bound : Option Nat} {element : Slot}
    (v : Container bound element.Val) (upper : v.items.length < 2 ^ 31)
    (back : ∀ item ∈ v.items, ∀ rest,
      element.recv map none (element.sizeOf item) element.default (element.send map item ++ rest) =
        .ok (item, rest))
    (size : Int) (rest : List UInt8) :
    (Ty.array bound element).recvImpl map size (Ty.array bound element).default
      ((Ty.array bound element).sendImpl map v ++ rest) = .ok (v, rest) := by
  rw [Ty.recvImpl_array map v upper]
  by_cases empty : v.items.length = 0
  · have none := List.length_eq_zero_iff.mp empty
    rw [if_pos empty, none, Container.default_eq_of_nil v none]
    rfl
  · rw [if_neg empty]
    apply recvElements_encode v upper
    intro item member left
    rw [recvSized_dataFrame, element.int32_sizeOf]
    exact back item member left

theorem readAndVerifyHeader_writeInt32 (kind : CompositeKind) (fields : Fields)
    (rest : List UInt8) :
    readAndVerifyHeader fields.fieldsNumber (.composite kind fields)
      (writeInt32 fields.fieldsNumber ++ rest) = .ok ((), rest) := by
  have number : int32 fields.fieldsNumber = fields.fieldsNumber := int32_int32 _
  rw [readAndVerifyHeader, bind_of_ok (readInt32_writeInt32 _ _), number]
  exact require_eq_ok_iff.mpr ⟨rfl, rfl⟩

theorem Ty.recvImpl_composite_of_header (kind : CompositeKind) (fields : Fields)
    (out : fields.Val) (size : Int) {bytes rest : List UInt8}
    (header : readAndVerifyHeader fields.fieldsNumber (.composite kind fields) bytes =
      .ok ((), rest)) :
    (Ty.composite kind fields).recvImpl map size out bytes = fields.recvFrames map out rest := by
  simp only [Ty.recvImpl]
  exact bind_of_ok header

/-- What follows the header of a composite that was sent. -/
theorem Ty.recvImpl_composite (kind : CompositeKind) (fields : Fields) (v : fields.Val)
    (size : Int) (rest : List UInt8) :
    (Ty.composite kind fields).recvImpl map size (Ty.composite kind fields).default
        ((Ty.composite kind fields).sendImpl map v ++ rest) =
      fields.recvFrames map fields.default (fields.sendFrames map v ++ rest) := by
  have start : (Ty.composite kind fields).sendImpl map v ++ rest =
      writeInt32 fields.fieldsNumber ++ (fields.sendFrames map v ++ rest) := by
    simp only [Ty.sendImpl, List.append_assoc]
  have header := readAndVerifyHeader_writeInt32 kind fields (fields.sendFrames map v ++ rest)
  rw [← start] at header
  exact Ty.recvImpl_composite_of_header map kind fields fields.default size header

/-- The first frame of a composite that was sent, and then the others. -/
theorem Fields.recvFrames_cons (head : Slot) (tail : Fields) (v : (Fields.cons head tail).Val)
    (rest : List UInt8) :
    (Fields.cons head tail).recvFrames map (Fields.cons head tail).default
        ((Fields.cons head tail).sendFrames map v ++ rest) =
      (head.recv map (some (head.typeOid map)) (head.sizeOf v.1) head.default >>= fun first =>
        tail.recvFrames map tail.default >>= fun others => pure (first, others))
        (head.send map v.1 ++ (tail.sendFrames map v.2 ++ rest)) := by
  have first := recvTyped_frame (fun oid size => head.recv map oid size head.default)
    (head.typeOid map) (head.sizeOf v.1) (head.send map v.1) (tail.sendFrames map v.2 ++ rest)
  rw [head.int32_sizeOf] at first
  simp only [Fields.recvFrames, Fields.sendFrames, Fields.default, List.append_assoc]
  simp only [bind, first]
  rfl

theorem length_items_le {bound : Option Nat} {element : Slot} (v : Container bound element.Val) :
    v.items.length ≤ ((Ty.array bound element).sendImpl map v).length := by
  have frames : v.items.length ≤ (v.items.map fun item =>
      dataFrame (element.sizeOf item) (element.send map item)).flatten.length := by
    induction v.items with
    | nil => exact Nat.le_refl 0
    | cons item items ih =>
        rw [List.map_cons, List.flatten_cons, List.length_append, length_dataFrame,
          List.length_cons]
        omega
  simp only [Ty.sendImpl, List.length_append]
  omega

mutual

/-- An object is received back from what was sent for it. -/
theorem Ty.recvImpl_sendImpl : (t : Ty) → t.exactlyReceivable = true → (v : t.Val) →
    (t.sendImpl map v).length < 2 ^ 31 → t.Inside Slot.SizeNotNull v → (rest : List UInt8) →
      t.recvImpl map (int32 (t.sizeOfImpl v)) t.default (t.sendImpl map v ++ rest) = .ok (v, rest)
  | .scalar s, exactly, v, upper, _, rest => Ty.recvImpl_scalar map s exactly v upper rest
  | .array bound element, exactly, v, upper, inside, rest => by
      apply Ty.recvImpl_array_eq map v (by have := length_items_le map v; omega)
      intro item member left
      have shorter := length_send_item_le map member
      simp only [Ty.sendImpl, List.length_append] at upper
      exact element.recv_send exactly item (by omega) (inside item member) none left (by simp)
  | .composite kind fields, exactly, v, upper, inside, rest => by
      have read := fields.recvFrames_sendFrames exactly v
        (by simp only [Ty.sendImpl, List.length_append] at upper; omega) inside rest
      exact (Ty.recvImpl_composite map kind fields v _ rest).trans read

theorem Slot.recv_send : (s : Slot) → s.exactlyReceivable = true → (v : s.Val) →
    (s.send map v).length < 2 ^ 31 → s.Everywhere Slot.SizeNotNull v → (oid : Option Oid) →
      (rest : List UInt8) → (∀ sent, oid = some sent → s.typeOid map = sent) →
      s.recv map oid (s.sizeOf v) s.default (s.send map v ++ rest) = .ok (v, rest)
  | .plain type, exactly, v, upper, notNull, oid, rest, accepted => by
      have read := type.recvImpl_sendImpl exactly v (by simpa only [Slot.send] using upper)
        notNull.2 rest
      exact (recvPlain_apply accepted (notNull.1 rfl) _).trans read
  | .nullable type, _, none, _, _, _, _, _ => rfl
  | .nullable type, exactly, some v, upper, notNull, oid, rest, accepted => by
      have read := type.recvImpl_sendImpl exactly v (by simpa only [Slot.send] using upper)
        notNull.2 rest
      exact (recvNullable_apply accepted (notNull.1 rfl) _).trans (bind_of_ok read)
  | .null, exactly, _, _, _, _, _, _ => by cases exactly

theorem Fields.recvFrames_sendFrames : (fields : Fields) → fields.exactlyReceivable = true →
    (v : fields.Val) → (fields.sendFrames map v).length < 2 ^ 31 →
      fields.Everywhere Slot.SizeNotNull v → (rest : List UInt8) →
      fields.recvFrames map fields.default (fields.sendFrames map v ++ rest) = .ok (v, rest)
  | .nil, _, _, _, _, _ => rfl
  | .cons head tail, exactly, v, upper, notNull, rest => by
      simp only [Fields.exactlyReceivable, Bool.and_eq_true] at exactly
      simp only [Fields.sendFrames, List.length_append, length_frame] at upper
      have first := head.recv_send exactly.1 v.1 (by omega) notNull.1
        (some (head.typeOid map)) (tail.sendFrames map v.2 ++ rest) (by rintro _ ⟨⟩; rfl)
      have others := tail.recvFrames_sendFrames exactly.2 v.2 (by omega) notNull.2 rest
      exact (Fields.recvFrames_cons map head tail v rest).trans
        ((bind_of_ok first).trans (bind_of_ok others))

end

mutual

/-- An object that has a value of the null size inside is not received back. -/
theorem Ty.recvImpl_sendImpl_ne : (t : Ty) → t.exactlyReceivable = true → (v : t.Val) →
    (t.sendImpl map v).length < 2 ^ 31 → ¬ t.Inside Slot.SizeNotNull v →
      (size : Int) → (rest : List UInt8) → (result : t.Val) → (left : List UInt8) →
      t.recvImpl map size t.default (t.sendImpl map v ++ rest) = .ok (result, left) → result ≠ v
  | .scalar _, _, _, _, spoiled, _, _, _, _, _ => absurd trivial spoiled
  | .array bound element, exactly, v, upper, spoiled, size, rest, result, left, read => by
      have count : (Container.items v).length < 2 ^ 31 := by
        have fewer := length_items_le map v
        omega
      have shorter : ∀ item ∈ Container.items v, (element.send map item).length < 2 ^ 31 := by
        intro item member
        have le := length_send_item_le map member
        simp only [Ty.sendImpl, List.length_append] at upper
        omega
      obtain ⟨bad, member, isBad⟩ : ∃ item ∈ Container.items v,
          ¬ element.Everywhere Slot.SizeNotNull item := by
        simpa only [Ty.Inside, not_forall, exists_prop] using spoiled
      have nonEmpty : (Container.items v).length ≠ 0 :=
        Nat.ne_of_gt (List.length_pos_of_mem member)
      have elements := (Ty.recvImpl_array map v count size rest).symm.trans read
      rw [if_neg nonEmpty] at elements
      refine recvElements_encode_ne (element.Everywhere Slot.SizeNotNull) v count
        ?_ ?_ ⟨bad, member, isBad⟩ elements
      · intro item itemMem notNull left
        rw [recvSized_dataFrame, element.int32_sizeOf]
        exact element.recv_send map exactly item (shorter item itemMem) notNull none left (by simp)
      · intro item itemMem isSpoiled rest result left read
        rw [recvSized_dataFrame, element.int32_sizeOf] at read
        exact element.recv_send_ne exactly item (shorter item itemMem) isSpoiled none rest result
          left (by simp) read
  | .composite kind fields, exactly, v, upper, spoiled, size, rest, result, left, read => by
      have frames := (Ty.recvImpl_composite map kind fields v size rest).symm.trans read
      exact fields.recvFrames_sendFrames_ne exactly v
        (by simp only [Ty.sendImpl, List.length_append] at upper; omega) spoiled rest result left
        frames

theorem Slot.recv_send_ne : (s : Slot) → s.exactlyReceivable = true → (v : s.Val) →
    (s.send map v).length < 2 ^ 31 → ¬ s.Everywhere Slot.SizeNotNull v → (oid : Option Oid) →
      (rest : List UInt8) → (result : s.Val) → (left : List UInt8) →
      (∀ sent, oid = some sent → s.typeOid map = sent) →
      s.recv map oid (s.sizeOf v) s.default (s.send map v ++ rest) = .ok (result, left) →
        result ≠ v
  | .plain type, exactly, v, upper, spoiled, oid, rest, result, left, accepted, read => by
      by_cases announced : (Slot.plain type).sizeOf v = nullStateSize
      · rw [announced] at read
        exact absurd read (recvPlain_nullStateSize _ _)
      · have inside : ¬ type.Inside Slot.SizeNotNull v :=
          fun notNull => spoiled ⟨fun _ => announced, notNull⟩
        exact type.recvImpl_sendImpl_ne exactly v (by simpa only [Slot.send] using upper) inside _
          rest result left ((recvPlain_apply accepted announced _).symm.trans read)
  | .nullable type, _, none, _, spoiled, _, _, _, _, _, _ =>
      absurd (fun nonNull => nomatch nonNull) spoiled
  | .nullable type, exactly, some v, upper, spoiled, oid, rest, result, left, accepted, read => by
      by_cases announced : (Slot.nullable type).sizeOf (some v) = nullStateSize
      · rw [announced] at read
        have none := (recvNullable_nullStateSize _).symm.trans read
        cases none
        exact Option.some_ne_none v ∘ Eq.symm
      · have inside : ¬ type.Inside Slot.SizeNotNull v :=
          fun notNull => spoiled ⟨fun _ => announced, notNull⟩
        have received := (recvNullable_apply accepted announced _).symm.trans read
        rcases bind_eq_ok_iff.mp received with ⟨value, _, payload, made⟩
        rcases pure_eq_ok_iff.mp made with ⟨rfl, rfl⟩
        have differ := type.recvImpl_sendImpl_ne exactly v
          (by simpa only [Slot.send] using upper) inside _ rest value _ payload
        exact fun same => differ (Option.some.inj same)
  | .null, exactly, _, _, _, _, _, _, _, _, _ => by cases exactly

theorem Fields.recvFrames_sendFrames_ne : (fields : Fields) → fields.exactlyReceivable = true →
    (v : fields.Val) → (fields.sendFrames map v).length < 2 ^ 31 →
      ¬ fields.Everywhere Slot.SizeNotNull v → (rest : List UInt8) → (result : fields.Val) →
      (left : List UInt8) →
      fields.recvFrames map fields.default (fields.sendFrames map v ++ rest) =
        .ok (result, left) → result ≠ v
  | .nil, _, _, _, spoiled, _, _, _, _ => absurd trivial spoiled
  | .cons head tail, exactly, v, upper, spoiled, rest, result, left, read => by
      simp only [Fields.exactlyReceivable, Bool.and_eq_true] at exactly
      simp only [Fields.sendFrames, List.length_append, length_frame] at upper
      have received := (Fields.recvFrames_cons map head tail v rest).symm.trans read
      rcases bind_eq_ok_iff.mp received with ⟨first, middle, headRead, received⟩
      rcases bind_eq_ok_iff.mp received with ⟨others, _, tailRead, made⟩
      rcases pure_eq_ok_iff.mp made with ⟨rfl, rfl⟩
      have accepted : ∀ sent, some (head.typeOid map) = some sent → head.typeOid map = sent :=
        fun sent same => Option.some.inj same
      by_cases headGood : head.Everywhere Slot.SizeNotNull v.1
      · have exactRead := head.recv_send map exactly.1 v.1 (by omega) headGood _
          (tail.sendFrames map v.2 ++ rest) accepted
        rw [exactRead] at headRead
        cases headRead
        have differ := tail.recvFrames_sendFrames_ne exactly.2 v.2 (by omega)
          (fun tailGood => spoiled ⟨headGood, tailGood⟩) rest others _ tailRead
        exact fun same => differ (congrArg Prod.snd same)
      · have differ := head.recv_send_ne exactly.1 v.1 (by omega) headGood _ _ first middle
          accepted headRead
        exact fun same => differ (congrArg Prod.fst same)

end

/-- Nulls that are uniform in every array keep sizes right, and a right size is
not the null one. -/
theorem Slot.sizeNotNull_of_nullsUniform (s : Slot) (v : s.Val)
    (short : (s.send map v).length < 2 ^ 31)
    (uniform : s.Everywhere (Slot.Holds Ty.NullsUniform) v) :
    s.Everywhere Slot.SizeNotNull v := by
  have exactly := (s.sizeExact_everywhere_iff map v short).mpr uniform
  refine Slot.Everywhere.mono (fun s v exactly nonNull => ?_) s v exactly
  rw [exactly nonNull, nullStateSize]
  omega

/-- A frame that was sent is received back, into a default-constructed object
and whatever follows it, exactly when no value in it has the null size; nulls
that are uniform in every array of static-size elements are enough for that. -/
theorem recvFrame_sendFrame_iff (s : Slot) (v : s.Val) (exactly : s.exactlyReceivable = true)
    (short : (s.send map v).length < 2 ^ 31) :
    ((∀ rest, s.recvFrame map s.default (s.sendFrame map v ++ rest) = .ok (v, rest)) ↔
        s.Everywhere Slot.SizeNotNull v) ∧
      (s.Everywhere (Slot.Holds Ty.NullsUniform) v →
        ∀ rest, s.recvFrame map s.default (s.sendFrame map v ++ rest) = .ok (v, rest)) := by
  have accepted : ∀ sent, some (s.typeOid map) = some sent → s.typeOid map = sent :=
    fun sent same => Option.some.inj same
  have frame : ∀ rest, s.recvFrame map s.default (s.sendFrame map v ++ rest) =
      s.recv map (some (s.typeOid map)) (s.sizeOf v) s.default (s.send map v ++ rest) := by
    intro rest
    rw [Slot.recvFrame, Slot.sendFrame, recvTyped_frame, s.int32_sizeOf]
  have enough : s.Everywhere Slot.SizeNotNull v →
      ∀ rest, s.recvFrame map s.default (s.sendFrame map v ++ rest) = .ok (v, rest) := by
    intro notNull rest
    rw [frame]
    exact s.recv_send map exactly v short notNull _ rest accepted
  refine ⟨⟨?_, enough⟩, fun uniform => enough (s.sizeNotNull_of_nullsUniform map v short uniform)⟩
  intro back
  by_contra spoiled
  have read := back []
  rw [frame] at read
  exact s.recv_send_ne map exactly v short spoiled _ [] v [] accepted read rfl

end RoundTrip

/-! ## A frame that is received as null -/

/-- An array of one value and a number of nulls after it. -/
def valueAndNulls {α : Type} (first null : α) (nulls : Nat) : Container none α where
  items := first :: List.replicate nulls null
  length_eq := by simp

section ValueAndNulls

variable (element : Slot) (static : element.staticSize = true) (first null : element.Val)
  (nonNull : element.isNull first = false) (isNull : element.isNull null = true) (nulls : Nat)

include static nonNull in
/-- Every null is counted with the bytes of the first element. -/
theorem sizeOf_valueAndNulls :
    (Slot.plain (.array none element)).sizeOf (valueAndNulls first null nulls) =
      int32 (20 + (4 + (element.width : Int)) * (nulls + 1 : Nat)) := by
  have size : (Slot.plain (.array none element)).sizeOf (valueAndNulls first null nulls) =
      int32 (arrayHeaderSize + arrayDataSize element.staticSize
        ((valueAndNulls first null nulls).items.map fun item =>
          dataFrameSizeOf (element.sizeOf item))) := by
    simp only [Slot.sizeOf, Ty.sizeOfImpl]
  have frame := (element.static_element (fun _ => 0) static first).1
  rw [nonNull] at frame
  rw [size, static]
  simp only [valueAndNulls, arrayDataSize, arrayHeaderSize, if_true, List.map_cons,
    List.length_cons, List.length_map, List.length_replicate, frame, int32_add_int32]
  rfl

include static nonNull isNull in
theorem length_send_valueAndNulls (map : OidMap) :
    ((Slot.plain (.array none element)).send map (valueAndNulls first null nulls)).length =
      24 + element.width + 4 * nulls := by
  have payloads : ((valueAndNulls first null nulls).items.map fun item =>
      (4 : Int) + (element.send map item).length) =
        (valueAndNulls first null nulls).items.map fun item =>
          4 + element.payload (element.isNull item) := by
    apply List.map_congr_left
    intro item _
    rw [(element.static_element map static item).2]
  have written := length_flatten_dataFrames map element (valueAndNulls first null nulls).items
  have unlike : (valueAndNulls first null nulls).items.countP
      (fun item => element.isNull item != false) = nulls := by
    simp [valueAndNulls, List.countP_replicate, nonNull, isNull]
  rw [payloads, element.sum_payload false, unlike] at written
  simp only [Slot.payload, Slot.excess, Bool.false_eq_true, if_false, valueAndNulls,
    List.length_cons, List.length_replicate, Int.add_mul, Int.natCast_add, Int.mul_add] at written
  simp only [Slot.send, Ty.sendImpl, List.length_append, length_sendArrayHeader, valueAndNulls]
  omega

end ValueAndNulls

/-- The slot of a record of two members. -/
def recordOf (first second : Slot) : Slot :=
  .plain (.composite .record (.cons first (.cons second .nil)))

theorem sizeOf_recordOf {first second : Slot} (v : first.Val × second.Val × Unit) :
    (recordOf first second).sizeOf v =
      int32 (4 + (frameSizeOf (first.sizeOf v.1) + frameSizeOf (second.sizeOf v.2.1))) := by
  have size : (recordOf first second).sizeOf v =
      int32 (4 + int32 (frameSizeOf (first.sizeOf v.1) +
        int32 (frameSizeOf (second.sizeOf v.2.1) + 0))) := by
    simp only [recordOf, Slot.sizeOf, Ty.sizeOfImpl, Fields.dataSize]
  rw [size]
  simp

theorem length_send_recordOf (map : OidMap) {first second : Slot}
    (v : first.Val × second.Val × Unit) :
    ((recordOf first second).send map v).length =
      20 + (first.send map v.1).length + (second.send map v.2.1).length := by
  simp only [recordOf, Slot.send, Ty.sendImpl, Fields.sendFrames, List.length_append,
    length_writeInt32, length_frame, List.length_nil]
  omega

/-- An optional uuid, and an array of them with a text behind it. -/
def optionalUuid : Slot :=
  .nullable (.scalar .uuid)

def uuidsAndText : Slot :=
  recordOf (.plain (.array none optionalUuid)) (.plain (.scalar .text))

def uuidsAndTextOf (nulls length : Nat) : uuidsAndText.Val :=
  (valueAndNulls (α := optionalUuid.Val) (some Scalar.uuid.default : Option Scalar.uuid.Val)
      (none : Option Scalar.uuid.Val) nulls,
    ((List.replicate length 0 : List UInt8), ()))

theorem sizeOf_uuidsAndTextOf (nulls length : Nat) :
    uuidsAndText.sizeOf (uuidsAndTextOf nulls length) =
      int32 (4 + (frameSizeOf (int32 (20 + 20 * (nulls + 1 : Nat))) +
        frameSizeOf (int32 length))) := by
  have array := sizeOf_valueAndNulls optionalUuid rfl
    (some Scalar.uuid.default : Option Scalar.uuid.Val) (none : Option Scalar.uuid.Val) rfl nulls
  have text : (Slot.plain (.scalar .text)).sizeOf (List.replicate length (0 : UInt8)) =
      int32 (List.replicate length (0 : UInt8)).length := by
    simp only [Slot.sizeOf, Ty.sizeOfImpl, Scalar.sizeOf]
  rw [List.length_replicate] at text
  have size := sizeOf_recordOf (uuidsAndTextOf nulls length)
  simp only [uuidsAndTextOf] at size
  rw [text] at size
  apply size.trans
  rw [array]
  rfl

theorem length_send_uuidsAndTextOf (map : OidMap) (nulls length : Nat) :
    (uuidsAndText.send map (uuidsAndTextOf nulls length)).length = 60 + 4 * nulls + length := by
  have array := length_send_valueAndNulls optionalUuid rfl
    (some Scalar.uuid.default : Option Scalar.uuid.Val) (none : Option Scalar.uuid.Val) rfl rfl
    nulls map
  have text : ((Slot.plain (.scalar .text)).send map
      (List.replicate length (0 : UInt8))).length = length := by
    simp only [Slot.send, Ty.sendImpl, Scalar.send]
    exact List.length_replicate
  have total := length_send_recordOf map (uuidsAndTextOf nulls length)
  simp only [uuidsAndTextOf] at total
  rw [text] at total
  apply total.trans
  rw [array]
  have width : optionalUuid.width = 16 := rfl
  omega

/-- A pair of records of some 430 megabytes each.  The first computes a size of
`2 ^ 31 - 1` and its frame size wraps; with the second the sum is `-1`. -/
def wrappingPair : (recordOf uuidsAndText uuidsAndText).Val :=
  (uuidsAndTextOf 107374179 7, (uuidsAndTextOf 107374178 8, ()))

theorem sizeOf_wrappingPair :
    (recordOf uuidsAndText uuidsAndText).sizeOf wrappingPair = nullStateSize := by
  have size := sizeOf_recordOf wrappingPair
  simp only [wrappingPair, sizeOf_uuidsAndTextOf] at size
  apply size.trans
  decide

/-- The pair is sent, but the receiver takes its frame for a null and throws. -/
theorem recvFrame_sendFrame_wrappingPair :
    (recordOf uuidsAndText uuidsAndText).exactlyReceivable = true ∧
      ((recordOf uuidsAndText uuidsAndText).send (fun _ => 0) wrappingPair).length < 2 ^ 31 ∧
      ¬ ∀ rest, (recordOf uuidsAndText uuidsAndText).recvFrame (fun _ => 0)
        (recordOf uuidsAndText uuidsAndText).default
        ((recordOf uuidsAndText uuidsAndText).sendFrame (fun _ => 0) wrappingPair ++ rest) =
          .ok (wrappingPair, rest) := by
  refine ⟨rfl, ?_, ?_⟩
  · have total := length_send_recordOf (fun _ => 0) wrappingPair
    simp only [wrappingPair, length_send_uuidsAndTextOf] at total
    exact Nat.lt_of_le_of_lt (Nat.le_of_eq total) (by decide)
  · intro back
    have read := back []
    rw [Slot.recvFrame, Slot.sendFrame, recvTyped_frame, Slot.int32_sizeOf,
      sizeOf_wrappingPair] at read
    exact recvPlain_nullStateSize _ _ read

/-- The miscounted array `{NULL, 5}` is received back. -/
theorem recvFrame_sendFrame_mixedNulls :
    optionalInts.recvFrame (fun _ => 0) optionalInts.default
      (optionalInts.sendFrame (fun _ => 0) mixedNulls ++ [7]) = .ok (mixedNulls, [7]) := by
  have notNull : optionalInts.Everywhere Slot.SizeNotNull mixedNulls := by
    refine ⟨fun _ => by decide, fun item member => ?_⟩
    rcases List.mem_cons.mp member with rfl | member
    · exact fun nonNull => absurd nonNull (by decide)
    · rcases List.mem_cons.mp member with rfl | member
      · exact ⟨fun _ => by decide, trivial⟩
      · exact absurd member (List.not_mem_nil)
  exact (recvFrame_sendFrame_iff (fun _ => 0) optionalInts mixedNulls rfl (by decide)).1.mpr
    notNull [7]

end Bozo.Io
