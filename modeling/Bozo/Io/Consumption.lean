import Bozo.Io.Recv

/-!
# Declared sizes against consumed bytes

A receive function that succeeds has consumed the declared number of bytes, and
so has every receive of a frame inside, exactly when the declared sizes fit
together: an array or a composite is as long as its headers and the frames it
announces, and a type that ignores its declared size is declared with the size
it has.
-/

namespace Bozo.Io

open Bozo.Bytes
open Bozo.Bytes.Reader

/-! ## Frames that are read exactly -/

/-- The frame at the front of an input is read exactly: its payload consumes the
announced size, and so do the frames in it. -/
def FrameRead {β : Type} (receive : Int → Reader RecvError β) (nested : List UInt8 → Prop)
    (frame : List UInt8) : Prop :=
  ∀ size payload, readInt32 frame = .ok (size, payload) → size ≠ nullStateSize →
    (∀ result rest, receive size payload = .ok (result, rest) → Consumes size payload rest) ∧
      nested payload

mutual

/-- Every frame inside an object that is received into `out` is read from
exactly the bytes of that frame. -/
def Ty.FramesRead (map : OidMap) : (t : Ty) → t.Val → List UInt8 → Prop
  | .scalar _, _, _ => True
  | .array bound element, out, bytes =>
      ∀ count rest, recvArrayHeader map element bytes = .ok (some count, rest) →
        ∀ fitted left, fitArraySize element.default count bound out rest = .ok (fitted, left) →
          Visits (fun item => recvSized fun size => element.recv map none size item)
            (fun item => FrameRead (fun size => element.recv map none size item)
              (element.FramesRead map item))
            fitted.items left
  | .composite kind fields, out, bytes =>
      ∀ rest, readAndVerifyHeader fields.fieldsNumber (.composite kind fields) bytes =
        .ok ((), rest) → fields.FramesRead map out rest

def Slot.FramesRead (map : OidMap) : (s : Slot) → s.Val → List UInt8 → Prop
  | .plain type, out, bytes => type.FramesRead map out bytes
  | .nullable type, out, bytes => type.FramesRead map (Option.getD out type.default) bytes
  | .null, _, _ => True

def Fields.FramesRead (map : OidMap) : (fields : Fields) → fields.Val → List UInt8 → Prop
  | .nil, _, _ => True
  | .cons head tail, out, bytes =>
      (∀ oid frame, readWord 4 bytes = .ok (oid, frame) →
        FrameRead (fun size => head.recv map (some oid) size out.1)
          (head.FramesRead map out.1) frame) ∧
        ∀ first rest,
          recvTyped (fun oid size => head.recv map oid size out.1) bytes = .ok (first, rest) →
            tail.FramesRead map out.2 rest

end

/-! ## Sizes that fit together -/

/-- The signed 32-bit integer at the front of an input. -/
def announced (bytes : List UInt8) : Int :=
  (byteOrderSwap (ofRaw (bytes.take 4)) : Word 4).toInt

/-- A number of data frames, walked by their announced sizes, has a total
length, and the payload of each satisfies a property of its size. -/
def Tiled (inner : Int → List UInt8 → Prop) : Nat → List UInt8 → Int → Prop
  | 0, _, total => total = 0
  | n + 1, bytes, total =>
      (announced bytes = nullStateSize ∨ inner (announced bytes) (bytes.drop 4)) ∧
        Tiled inner n (bytes.drop (4 + (announced bytes).toNat))
          (total - (4 + (announced bytes).toNat : Nat))

/-- The sizes that a scalar may be declared with: only the types that do not
check the declared size are restricted. -/
def Scalar.WellFramed : Scalar → Int → Prop
  | .uuid, size | .interval, size => size = 16
  | .timestamp, size => size = 8
  | _, _ => True

mutual

/-- The size declared for an object fits the sizes announced inside it. -/
def Ty.WellFramed : Ty → Int → List UInt8 → Prop
  | .scalar s, size, _ => s.WellFramed size
  | .array bound element, size, bytes =>
      if announced bytes < 1 then
        size = 12
      else if announced (bytes.drop 12) = 0 then
        size = 20
      else
        Tiled element.WellFramed (bound.getD (announced (bytes.drop 12)).toNat) (bytes.drop 20)
          (size - 20)
  | .composite _ fields, size, bytes => fields.WellFramed (bytes.drop 4) (size - 4)

def Slot.WellFramed : Slot → Int → List UInt8 → Prop
  | .plain type, size, bytes | .nullable type, size, bytes => type.WellFramed size bytes
  | .null, _, _ => True

/-- The frames of a composite's members, walked by their announced sizes, have
a total length. -/
def Fields.WellFramed : Fields → List UInt8 → Int → Prop
  | .nil, _, total => total = 0
  | .cons head tail, bytes, total =>
      (announced (bytes.drop 4) = nullStateSize ∨
        head.WellFramed (announced (bytes.drop 4)) (bytes.drop 8)) ∧
        tail.WellFramed (bytes.drop (8 + (announced (bytes.drop 4)).toNat))
          (total - (8 + (announced (bytes.drop 4)).toNat : Nat))

end

/-! ## Reads of known length -/

theorem readByte_consumes {b : UInt8} {bytes rest : List UInt8}
    (read : readByte bytes = .ok (b, rest)) : Consumes 1 bytes rest := by
  cases bytes with
  | nil => cases read
  | cons first others =>
      cases read
      exact ⟨[b], rfl, rfl⟩

theorem readBytes_consumes {n : Nat} {value : { bytes : List UInt8 // bytes.length = n }}
    {bytes rest : List UInt8} (read : readBytes n bytes = .ok (value, rest)) :
    Consumes n bytes rest := by
  unfold readBytes at read
  split at read
  · cases read
    exact ⟨bytes.take n, (List.take_append_drop n bytes).symm,
      by rw [List.length_take_of_le ‹n ≤ bytes.length›]⟩
  · cases read

theorem readInt32_eq_ok {x : Int} {bytes rest : List UInt8}
    (read : readInt32 bytes = .ok (x, rest)) :
    x = announced bytes ∧ rest = bytes.drop 4 ∧ Consumes 4 bytes rest := by
  rcases bind_eq_ok_iff.mp read with ⟨word, middle, wordRead, made⟩
  rcases pure_eq_ok_iff.mp made with ⟨rfl, rfl⟩
  rcases word_eq_ok_iff.mp wordRead with ⟨-, rfl, rest⟩
  exact ⟨rfl, rest, word_consumes wordRead⟩

theorem readInt64_consumes {x : Int} {bytes rest : List UInt8}
    (read : readInt64 bytes = .ok (x, rest)) : Consumes 8 bytes rest := by
  rcases bind_eq_ok_iff.mp read with ⟨word, middle, wordRead, made⟩
  rcases pure_eq_ok_iff.mp made with ⟨-, rfl⟩
  exact word_consumes wordRead

theorem readInterval_consumes {interval : PgInterval} {bytes rest : List UInt8}
    (read : readInterval bytes = .ok (interval, rest)) : Consumes 16 bytes rest := by
  rcases bind_eq_ok_iff.mp read with ⟨_, first, usecs, read⟩
  rcases bind_eq_ok_iff.mp read with ⟨_, second, days, read⟩
  rcases bind_eq_ok_iff.mp read with ⟨_, third, months, made⟩
  rcases pure_eq_ok_iff.mp made with ⟨-, rfl⟩
  exact ((readInt64_consumes usecs).trans (readInt32_eq_ok days).2.2).trans
    (readInt32_eq_ok months).2.2

theorem recvWord_consumes {n : Nat} {size : Int} {x : Word n} {bytes rest : List UInt8}
    (read : recvWord n size bytes = .ok (x, rest)) : Consumes size bytes rest := by
  rcases bind_eq_ok_iff.mp read with ⟨_, _, required, wordRead⟩
  rcases require_eq_ok_iff.mp required with ⟨rfl, rfl⟩
  exact word_consumes wordRead

theorem recvString_consumes {size : Int} {value bytes rest : List UInt8}
    (read : recvString size bytes = .ok (value, rest)) : Consumes size bytes rest := by
  rcases bind_eq_ok_iff.mp read with ⟨_, _, required, content⟩
  rcases require_eq_ok_iff.mp required with ⟨nonneg, rfl⟩
  rcases bind_eq_ok_iff.mp content with ⟨_, _, bytesRead, made⟩
  rcases pure_eq_ok_iff.mp made with ⟨-, rfl⟩
  have consumed := readBytes_consumes bytesRead
  rwa [Int.toNat_of_nonneg nonneg] at consumed

theorem recvVersioned_consumes (type : Scalar) {size : Int} {value bytes rest : List UInt8}
    (read : recvVersioned type size bytes = .ok (value, rest)) : Consumes size bytes rest := by
  rcases bind_eq_ok_iff.mp read with ⟨_, _, required, content⟩
  rcases require_eq_ok_iff.mp required with ⟨-, rfl⟩
  rcases bind_eq_ok_iff.mp content with ⟨_, _, version, text⟩
  have consumed := (readByte_consumes version).trans (recvString_consumes text)
  rwa [Int.add_comm, Int.sub_add_cancel] at consumed

/-- A scalar consumes its declared size exactly when that is a size it may be
declared with. -/
theorem Scalar.consumes_iff (s : Scalar) {size : Int} {v : s.Val} {bytes rest : List UInt8}
    (read : s.recv size bytes = .ok (v, rest)) :
    Consumes size bytes rest ↔ s.WellFramed size := by
  have checked : Consumes size bytes rest → (Consumes size bytes rest ↔ True) :=
    fun consumed => iff_true_intro consumed
  cases s with
  | bool =>
      rcases bind_eq_ok_iff.mp read with ⟨_, _, required, content⟩
      rcases require_eq_ok_iff.mp required with ⟨rfl, rfl⟩
      rcases bind_eq_ok_iff.mp content with ⟨_, _, byteRead, made⟩
      rcases pure_eq_ok_iff.mp made with ⟨-, rfl⟩
      exact checked (readByte_consumes byteRead)
  | char =>
      rcases bind_eq_ok_iff.mp read with ⟨_, _, required, byteRead⟩
      rcases require_eq_ok_iff.mp required with ⟨rfl, rfl⟩
      exact checked (readByte_consumes byteRead)
  | int2 => exact checked (recvWord_consumes (n := 2) read)
  | int4 | oid | float4 => exact checked (recvWord_consumes (n := 4) read)
  | int8 | float8 => exact checked (recvWord_consumes (n := 8) read)
  | uuid => exact (readBytes_consumes (n := 16) read).iff_eq
  | interval =>
      rcases bind_eq_ok_iff.mp read with ⟨_, _, intervalRead, made⟩
      rcases pure_eq_ok_iff.mp made with ⟨-, rfl⟩
      exact (readInterval_consumes intervalRead).iff_eq
  | timestamp =>
      rcases bind_eq_ok_iff.mp read with ⟨_, _, valueRead, made⟩
      rcases pure_eq_ok_iff.mp made with ⟨-, rfl⟩
      exact (readInt64_consumes valueRead).iff_eq
  | text | bytea | name | json => exact checked (recvString_consumes read)
  | jsonb => exact checked (recvVersioned_consumes .jsonb read)
  | ltree => exact checked (recvVersioned_consumes .ltree read)

/-- What the headers of an array have consumed, by what they announce. -/
theorem recvArrayHeader_eq_ok {map : OidMap} {element : Slot} {count : Option Int}
    {bytes rest : List UInt8} (read : recvArrayHeader map element bytes = .ok (count, rest)) :
    (announced bytes < 1 ∧ count = none ∧ Consumes 12 bytes rest) ∨
      (¬ announced bytes < 1 ∧ announced (bytes.drop 12) = 0 ∧ count = none ∧
        Consumes 20 bytes rest) ∨
      (¬ announced bytes < 1 ∧ announced (bytes.drop 12) ≠ 0 ∧
        count = some (announced (bytes.drop 12)) ∧ Consumes 20 bytes rest) := by
  rcases bind_eq_ok_iff.mp read with ⟨dimensions, first, dimensionsRead, behindDimensions⟩
  rcases bind_eq_ok_iff.mp behindDimensions with ⟨_, second, offsetRead, behindOffset⟩
  rcases bind_eq_ok_iff.mp behindOffset with ⟨_, _, oidRead, checks⟩
  rcases bind_eq_ok_iff.mp checks with ⟨_, _, required, oidCheck⟩
  rcases require_eq_ok_iff.mp required with ⟨-, rfl⟩
  rcases bind_eq_ok_iff.mp oidCheck with ⟨_, third, accepted, dimension⟩
  rcases require_eq_ok_iff.mp accepted with ⟨-, rfl⟩
  rcases readInt32_eq_ok dimensionsRead with ⟨rfl, -, consumed⟩
  have header : Consumes 12 bytes third :=
    (consumed.trans (readInt32_eq_ok offsetRead).2.2).trans (word_consumes oidRead)
  split at dimension <;> rename_i dimensionsCount
  · rcases pure_eq_ok_iff.mp dimension with ⟨rfl, rfl⟩
    exact .inl ⟨dimensionsCount, rfl, header⟩
  · rcases bind_eq_ok_iff.mp dimension with ⟨size, fourth, sizeRead, behindSize⟩
    rcases bind_eq_ok_iff.mp behindSize with ⟨_, fifth, indexRead, result⟩
    rcases readInt32_eq_ok sizeRead with ⟨rfl, -, sizeConsumed⟩
    have both : Consumes 20 bytes fifth :=
      (header.trans sizeConsumed).trans (readInt32_eq_ok indexRead).2.2
    have position : third = bytes.drop 12 := Consumes.eq_drop (n := 12) header
    rw [position] at result
    split at result <;> rename_i empty
    · rcases pure_eq_ok_iff.mp result with ⟨rfl, rfl⟩
      exact .inr (.inl ⟨dimensionsCount, empty, rfl, both⟩)
    · rcases pure_eq_ok_iff.mp result with ⟨rfl, rfl⟩
      exact .inr (.inr ⟨dimensionsCount, empty, rfl, both⟩)

/-! ## The receive functions only move forward -/

theorem readByte_forward : Forward readByte :=
  fun _ _ _ read => (readByte_consumes read).suffix

theorem readInt32_forward : Forward readInt32 :=
  fun _ _ _ read => (readInt32_eq_ok read).2.2.suffix

theorem readWord_forward (n : Nat) : Forward (readWord n) :=
  fun _ _ _ read => (word_consumes read).suffix

theorem Scalar.recv_forward (s : Scalar) (size : Int) : Forward (s.recv size) := by
  cases s with
  | bool =>
      exact Forward.bind (Forward.require _ _) fun _ =>
        Forward.bind readByte_forward fun _ => Forward.pure _
  | char => exact Forward.bind (Forward.require _ _) fun _ => readByte_forward
  | int2 => exact fun _ _ _ read => (recvWord_consumes (n := 2) read).suffix
  | int4 | oid | float4 => exact fun _ _ _ read => (recvWord_consumes (n := 4) read).suffix
  | int8 | float8 => exact fun _ _ _ read => (recvWord_consumes (n := 8) read).suffix
  | uuid => exact fun _ _ _ read => (readBytes_consumes (n := 16) read).suffix
  | interval =>
      exact Forward.bind (fun _ _ _ read => (readInterval_consumes read).suffix) fun _ =>
        Forward.pure _
  | timestamp =>
      exact Forward.bind (fun _ _ _ read => (readInt64_consumes read).suffix) fun _ =>
        Forward.pure _
  | text | bytea | name | json => exact fun _ _ _ read => (recvString_consumes read).suffix
  | jsonb => exact fun _ _ _ read => (recvVersioned_consumes .jsonb read).suffix
  | ltree => exact fun _ _ _ read => (recvVersioned_consumes .ltree read).suffix

theorem recvArrayHeader_forward (map : OidMap) (element : Slot) :
    Forward (recvArrayHeader map element) := by
  intro bytes count rest read
  rcases recvArrayHeader_eq_ok read with ⟨_, _, consumed⟩ | ⟨_, _, _, consumed⟩ |
    ⟨_, _, _, consumed⟩
  · exact consumed.suffix
  · exact consumed.suffix
  · exact consumed.suffix

/-- Fitting a container reads nothing and gives it the number of elements that
are received then. -/
theorem fitArraySize_eq_ok {α : Type} {fresh : α} {count : Int} {bound : Option Nat}
    {out fitted : Container bound α} {bytes rest : List UInt8}
    (fit : fitArraySize fresh count bound out bytes = .ok (fitted, rest)) :
    rest = bytes ∧ fitted.items.length = bound.getD count.toNat := by
  cases bound with
  | none =>
      rcases bind_eq_ok_iff.mp fit with ⟨_, _, required, made⟩
      rcases require_eq_ok_iff.mp required with ⟨-, rfl⟩
      rcases pure_eq_ok_iff.mp made with ⟨rfl, rfl⟩
      constructor
      · rfl
      · simp only [resize, List.length_append, List.length_take, List.length_replicate,
          Option.getD_none]
        omega
  | some n =>
      rcases bind_eq_ok_iff.mp fit with ⟨_, _, required, made⟩
      rcases require_eq_ok_iff.mp required with ⟨-, rfl⟩
      rcases pure_eq_ok_iff.mp made with ⟨rfl, rfl⟩
      exact ⟨rfl, fitted.length_eq n rfl⟩

theorem recvElements_forward {α : Type} {bound : Option Nat} {fresh : α}
    {receive : α → Reader RecvError α} (each : ∀ item, Forward (receive item))
    (out : Container bound α) (count : Option Int) :
    Forward (recvElements fresh receive out count) := by
  cases count with
  | none => exact Forward.pure _
  | some count =>
      have fit : Forward (fitArraySize fresh count bound out) := by
        intro bytes fitted rest fit
        rcases fitArraySize_eq_ok fit with ⟨rfl, -⟩
        exact List.suffix_rfl
      exact Forward.bind fit fun fitted =>
        Forward.bind (Forward.forEach each fitted.items) fun _ => Forward.pure _

theorem checkOid_forward (map : OidMap) (type : Ty) (oid : Option Oid) :
    Forward (checkOid map type oid) := by
  cases oid with
  | none => exact Forward.pure _
  | some oid => exact Forward.require _ _

theorem recvSized_forward {α : Type} {receive : Int → Reader RecvError α}
    (each : ∀ size, Forward (receive size)) : Forward (recvSized receive) :=
  Forward.bind readInt32_forward each

mutual

theorem Ty.recvImpl_forward (map : OidMap) : (t : Ty) → (size : Int) → (out : t.Val) →
    Forward (t.recvImpl map size out)
  | .scalar s, size, _ => s.recv_forward size
  | .array _ element, _, out =>
      Forward.bind (recvArrayHeader_forward map element) fun count =>
        recvElements_forward
          (fun item => recvSized_forward fun size => element.recv_forward map none size item)
          out count
  | .composite _ fields, _, out =>
      Forward.bind (Forward.bind readInt32_forward fun _ => Forward.require _ _) fun _ =>
        fields.recvFrames_forward map out

theorem Slot.recv_forward (map : OidMap) (oid : Option Oid) : (s : Slot) → (size : Int) →
    (out : s.Val) → Forward (s.recv map oid size out)
  | .plain type, size, out =>
      Forward.bind (checkOid_forward map type oid) fun _ =>
        Forward.bind (Forward.require _ _) fun _ => type.recvImpl_forward map size out
  | .nullable type, size, out => by
      have received : Forward (recvNullable map type oid size
          (type.recvImpl map size (Option.getD out type.default))) := by
        unfold recvNullable
        split
        · exact Forward.pure _
        · exact Forward.bind (checkOid_forward map type oid) fun _ =>
            Forward.bind (type.recvImpl_forward map size _) fun _ => Forward.pure _
      exact received
  | .null, _, _ => Forward.fail _

theorem Fields.recvFrames_forward (map : OidMap) : (fields : Fields) → (out : fields.Val) →
    Forward (fields.recvFrames map out)
  | .nil, _ => Forward.pure _
  | .cons head tail, out =>
      Forward.bind
        (Forward.bind (readWord_forward 4) fun oid =>
          recvSized_forward fun size => head.recv_forward map (some oid) size out.1)
        fun _ => Forward.bind (tail.recvFrames_forward map out.2) fun _ => Forward.pure _

end

/-! ## Walking frames by their announced sizes -/

/-- A receive function whose exactness is decided by the declared size and the
payload; a null consumes nothing. -/
structure DecidedBy {β : Type} (receive : Int → Reader RecvError β) (nested : List UInt8 → Prop)
    (inner : Int → List UInt8 → Prop) : Prop where
  null : ∀ bytes result rest, receive nullStateSize bytes = .ok (result, rest) → rest = bytes
  value : ∀ size bytes result rest, size ≠ nullStateSize →
    receive size bytes = .ok (result, rest) →
      ((Consumes size bytes rest ∧ nested bytes) ↔ inner size bytes)

section Frame

variable {β : Type} {receive : Int → Reader RecvError β} {nested : List UInt8 → Prop}
  {inner : Int → List UInt8 → Prop} (decided : DecidedBy receive nested inner)
  {bytes middle : List UInt8} {result : β}
  (read : recvSized receive bytes = .ok (result, middle))

include decided read

theorem frameRead_iff :
    FrameRead receive nested bytes ↔
      announced bytes = nullStateSize ∨ inner (announced bytes) (bytes.drop 4) := by
  rcases bind_eq_ok_iff.mp read with ⟨size, payload, sizeRead, received⟩
  rcases readInt32_eq_ok sizeRead with ⟨rfl, rfl, -⟩
  constructor
  · intro frameRead
    by_cases null : announced bytes = nullStateSize
    · exact .inl null
    · rcases frameRead _ _ sizeRead null with ⟨consumes, inside⟩
      exact .inr ((decided.value _ _ _ _ null received).mp ⟨consumes _ _ received, inside⟩)
  · rintro fits size payload again nonNull
    rw [sizeRead] at again
    cases again
    have exactly := (decided.value _ _ _ _ nonNull received).mpr (fits.resolve_left nonNull)
    refine ⟨fun result rest otherwise => ?_, exactly.2⟩
    rw [received] at otherwise
    cases otherwise
    exact exactly.1

theorem consumes_of_fits
    (fits : announced bytes = nullStateSize ∨ inner (announced bytes) (bytes.drop 4)) :
    Consumes (4 + (announced bytes).toNat : Nat) bytes middle := by
  rcases bind_eq_ok_iff.mp read with ⟨size, payload, sizeRead, received⟩
  rcases readInt32_eq_ok sizeRead with ⟨rfl, rfl, header⟩
  by_cases null : announced bytes = nullStateSize
  · rw [null] at received ⊢
    rw [decided.null _ _ _ received]
    exact header
  · have exactly := (decided.value _ _ _ _ null received).mpr (fits.resolve_left null)
    have nonneg : 0 ≤ announced bytes := by
      rcases exactly.1 with ⟨front, -, length⟩
      omega
    rw [Int.natCast_add, Int.toNat_of_nonneg nonneg]
    exact header.trans exactly.1

end Frame

/-- The elements of an array are read exactly and have a total length exactly
when that is the length of the announced frames. -/
theorem forEach_consumes_iff {α β : Type} {receive : α → Int → Reader RecvError β}
    {nested : α → List UInt8 → Prop} {inner : Int → List UInt8 → Prop}
    (decided : ∀ entry, DecidedBy (receive entry) (nested entry) inner)
    (forward : ∀ entry size, Forward (receive entry size))
    {entries : List α} {bytes rest : List UInt8}
    {results : { results : List β // results.length = entries.length }}
    (run : forEach (fun entry => recvSized (receive entry)) entries bytes = .ok (results, rest))
    (total : Int) :
    (Consumes total bytes rest ∧
        Visits (fun entry => recvSized (receive entry))
          (fun entry => FrameRead (receive entry) (nested entry)) entries bytes) ↔
      Tiled inner entries.length bytes total := by
  induction entries generalizing bytes total with
  | nil =>
      rcases pure_eq_ok_iff.mp run with ⟨-, rfl⟩
      simp only [Visits, and_true, (Consumes.refl rest).iff_eq, Tiled, List.length_nil]
  | cons entry entries ih =>
      rcases forEach_cons_eq_ok_iff.mp run with ⟨result, middle, others, first, later, -⟩
      have behind : rest <:+ middle :=
        Forward.forEach (fun entry => recvSized_forward (forward entry)) entries _ _ _ later
      rw [visits_cons_iff (fun entry => recvSized (receive entry)) first,
        frameRead_iff (decided entry) first, List.length_cons, Tiled]
      constructor
      · rintro ⟨consumed, fits, onwards⟩
        have frame := consumes_of_fits (decided entry) first fits
        have position := frame.eq_drop
        constructor
        · exact fits
        · have tail := (ih later _).mp ⟨(frame.sub_iff behind).mp consumed, onwards⟩
          rwa [position] at tail
      · rintro ⟨fits, tiled⟩
        have frame := consumes_of_fits (decided entry) first fits
        have position := frame.eq_drop
        rw [← position] at tiled
        rcases (ih later _).mpr tiled with ⟨consumed, onwards⟩
        exact ⟨(frame.sub_iff behind).mpr consumed, fits, onwards⟩

/-! ## The receive functions -/

theorem recvPlain_eq_ok {α : Type} {map : OidMap} {type : Ty} {oid : Option Oid} {size : Int}
    {receive : Reader RecvError α} {bytes rest : List UInt8} {result : α}
    (read : recvPlain map type oid size receive bytes = .ok (result, rest)) :
    size ≠ nullStateSize ∧ receive bytes = .ok (result, rest) := by
  rcases bind_eq_ok_iff.mp read with ⟨_, _, checked, behindCheck⟩
  rcases bind_eq_ok_iff.mp behindCheck with ⟨_, _, required, received⟩
  rcases require_eq_ok_iff.mp required with ⟨declared, rfl⟩
  cases oid with
  | none =>
      rcases pure_eq_ok_iff.mp checked with ⟨-, rfl⟩
      exact ⟨declared, received⟩
  | some oid =>
      rcases require_eq_ok_iff.mp checked with ⟨-, rfl⟩
      exact ⟨declared, received⟩

theorem recvNullable_eq_ok {α : Type} {map : OidMap} {type : Ty} {oid : Option Oid} {size : Int}
    {receive : Reader RecvError α} {bytes rest : List UInt8} {result : Option α}
    (read : recvNullable map type oid size receive bytes = .ok (result, rest)) :
    (size = nullStateSize ∧ rest = bytes) ∨
      (size ≠ nullStateSize ∧ ∃ value, receive bytes = .ok (value, rest)) := by
  unfold recvNullable at read
  split at read <;> rename_i null
  · rcases pure_eq_ok_iff.mp read with ⟨-, rfl⟩
    exact .inl ⟨null, rfl⟩
  · rcases bind_eq_ok_iff.mp read with ⟨_, _, checked, behindCheck⟩
    rcases bind_eq_ok_iff.mp behindCheck with ⟨value, _, received, made⟩
    rcases pure_eq_ok_iff.mp made with ⟨-, rfl⟩
    refine .inr ⟨null, value, ?_⟩
    cases oid with
    | none =>
        rcases pure_eq_ok_iff.mp checked with ⟨-, rfl⟩
        exact received
    | some oid =>
        rcases require_eq_ok_iff.mp checked with ⟨-, rfl⟩
        exact received

/-- Receiving a null moves nowhere. -/
theorem Slot.recv_nullStateSize {map : OidMap} {oid : Option Oid} (s : Slot) {out result : s.Val}
    {bytes rest : List UInt8} (read : s.recv map oid nullStateSize out bytes = .ok (result, rest)) :
    rest = bytes := by
  cases s with
  | plain type => exact absurd rfl (recvPlain_eq_ok read).1
  | nullable type =>
      rcases recvNullable_eq_ok read with ⟨_, same⟩ | ⟨declared, _⟩
      · exact same
      · exact absurd rfl declared
  | null => cases read

section Headers

variable {map : OidMap} {bytes rest : List UInt8}

theorem Ty.framesRead_array_none {bound : Option Nat} {element : Slot}
    (header : recvArrayHeader map element bytes = .ok (none, rest))
    (out : (Ty.array bound element).Val) : (Ty.array bound element).FramesRead map out bytes := by
  intro count rest' again
  rw [header] at again
  cases again

theorem Ty.framesRead_array_some {bound : Option Nat} {element : Slot} {count : Int}
    (header : recvArrayHeader map element bytes = .ok (some count, rest))
    {out fitted : Container bound element.Val} {left : List UInt8}
    (fit : fitArraySize element.default count bound out rest = .ok (fitted, left)) :
    (Ty.array bound element).FramesRead map out bytes ↔
      Visits (fun item => recvSized fun size => element.recv map none size item)
        (fun item => FrameRead (fun size => element.recv map none size item)
          (element.FramesRead map item)) fitted.items left := by
  constructor
  · intro framesRead
    exact framesRead count rest header fitted left fit
  · intro visits count' rest' again fitted' left' fitAgain
    rw [header] at again
    cases again
    rw [fit] at fitAgain
    cases fitAgain
    exact visits

theorem Ty.framesRead_composite {kind : CompositeKind} {fields : Fields} {done : Unit}
    (header : readAndVerifyHeader fields.fieldsNumber (.composite kind fields) bytes =
      .ok (done, rest)) (out : fields.Val) :
    (Ty.composite kind fields).FramesRead map out bytes ↔ fields.FramesRead map out rest := by
  constructor
  · intro framesRead
    exact framesRead rest header
  · intro framesRead rest' again
    rw [header] at again
    cases again
    exact framesRead

theorem Fields.framesRead_cons {head : Slot} {tail : Fields}
    {out : (Fields.cons head tail).Val} {oid : Oid} {frame : List UInt8} {first : head.Val}
    (oidRead : readWord 4 bytes = .ok (oid, frame))
    (headRead : recvTyped (fun oid size => head.recv map oid size out.1) bytes =
      .ok (first, rest)) :
    (Fields.cons head tail).FramesRead map out bytes ↔
      FrameRead (fun size => head.recv map (some oid) size out.1) (head.FramesRead map out.1)
        frame ∧ tail.FramesRead map out.2 rest := by
  constructor
  · rintro ⟨here, onwards⟩
    exact ⟨here oid frame oidRead, onwards first rest headRead⟩
  · rintro ⟨here, onwards⟩
    constructor
    · intro oid' frame' again
      rw [oidRead] at again
      cases again
      exact here
    · intro first' rest' again
      rw [headRead] at again
      cases again
      exact onwards

theorem readAndVerifyHeader_consumes {fieldsNumber : Int} {type : Ty} {done : Unit}
    (header : readAndVerifyHeader fieldsNumber type bytes = .ok (done, rest)) :
    Consumes 4 bytes rest := by
  rcases bind_eq_ok_iff.mp header with ⟨_, _, countRead, required⟩
  rcases require_eq_ok_iff.mp required with ⟨-, rfl⟩
  exact (readInt32_eq_ok countRead).2.2

end Headers

mutual

/-- An object and the frames in it are read exactly when the declared sizes fit
together. -/
theorem Ty.consumes_iff (map : OidMap) : (t : Ty) → (size : Int) → (out : t.Val) →
    (bytes : List UInt8) → (result : t.Val) → (rest : List UInt8) →
    t.recvImpl map size out bytes = .ok (result, rest) →
      ((Consumes size bytes rest ∧ t.FramesRead map out bytes) ↔ t.WellFramed size bytes)
  | .scalar s, _, _, _, _, _, read => by
      simp only [Ty.FramesRead, and_true, Ty.WellFramed]
      exact s.consumes_iff read
  | .array bound element, size, out, bytes, result, rest, read => by
      rcases bind_eq_ok_iff.mp read with ⟨count, behind, header, elements⟩
      have decided : ∀ item, DecidedBy (fun size => element.recv map none size item)
          (element.FramesRead map item) element.WellFramed := fun item =>
        { null := fun _ _ _ received => element.recv_nullStateSize received
          value := fun size bytes result rest declared received =>
            element.recv_consumes_iff map none size item bytes result rest declared received }
      rcases recvArrayHeader_eq_ok header with ⟨noDimension, rfl, consumed⟩ |
        ⟨dimension, empty, rfl, consumed⟩ | ⟨dimension, nonEmpty, rfl, consumed⟩
      · rcases pure_eq_ok_iff.mp elements with ⟨-, rfl⟩
        simp only [Ty.framesRead_array_none header out, and_true, Ty.WellFramed, noDimension,
          if_true, consumed.iff_eq]
      · rcases pure_eq_ok_iff.mp elements with ⟨-, rfl⟩
        simp only [Ty.framesRead_array_none header out, and_true, Ty.WellFramed, dimension,
          empty, if_true, if_false, consumed.iff_eq]
      · rcases bind_eq_ok_iff.mp elements with ⟨fitted, left, fit, items⟩
        rcases bind_eq_ok_iff.mp items with ⟨results, _, run, made⟩
        rcases pure_eq_ok_iff.mp made with ⟨-, rfl⟩
        rcases fitArraySize_eq_ok fit with ⟨rfl, length⟩
        have forward : ∀ item size, Forward (element.recv map none size item) :=
          fun item size => element.recv_forward map none size item
        have behind : rest <:+ left :=
          Forward.forEach (fun item => recvSized_forward (forward item)) _ _ _ _ run
        have position : left = bytes.drop 20 := Consumes.eq_drop (n := 20) consumed
        have tiled := forEach_consumes_iff decided forward run (size - 20)
        rw [length, ← Ty.framesRead_array_some header fit, ← consumed.sub_iff behind] at tiled
        simp only [Ty.WellFramed, dimension, nonEmpty, if_false]
        rw [← position]
        exact tiled
  | .composite kind fields, size, out, bytes, result, rest, read => by
      rcases bind_eq_ok_iff.mp read with ⟨_, left, header, frames⟩
      have consumed := readAndVerifyHeader_consumes header
      have behind : rest <:+ left := fields.recvFrames_forward map out _ _ _ frames
      have position : left = bytes.drop 4 := Consumes.eq_drop (n := 4) consumed
      have members := fields.recvFrames_consumes_iff map out left result rest frames (size - 4)
      rw [← consumed.sub_iff behind] at members
      simp only [Ty.WellFramed, ← position]
      exact (and_congr_right fun _ => Ty.framesRead_composite header out).trans members

theorem Slot.recv_consumes_iff (map : OidMap) (oid : Option Oid) : (s : Slot) → (size : Int) →
    (out : s.Val) → (bytes : List UInt8) → (result : s.Val) → (rest : List UInt8) →
    size ≠ nullStateSize → s.recv map oid size out bytes = .ok (result, rest) →
      ((Consumes size bytes rest ∧ s.FramesRead map out bytes) ↔ s.WellFramed size bytes)
  | .plain type, size, out, bytes, result, rest, _, read =>
      type.consumes_iff map size out bytes result rest (recvPlain_eq_ok read).2
  | .nullable type, size, out, bytes, result, rest, declared, read => by
      rcases recvNullable_eq_ok read with ⟨null, _⟩ | ⟨_, value, received⟩
      · exact absurd null declared
      · exact type.consumes_iff map size _ bytes value rest received
  | .null, _, _, _, _, _, _, read => by cases read

theorem Fields.recvFrames_consumes_iff (map : OidMap) : (fields : Fields) → (out : fields.Val) →
    (bytes : List UInt8) → (result : fields.Val) → (rest : List UInt8) →
    fields.recvFrames map out bytes = .ok (result, rest) → (total : Int) →
      ((Consumes total bytes rest ∧ fields.FramesRead map out bytes) ↔
        fields.WellFramed bytes total)
  | .nil, _, _, _, _, read, total => by
      rcases pure_eq_ok_iff.mp read with ⟨-, rfl⟩
      simp only [Fields.FramesRead, and_true, Fields.WellFramed, (Consumes.refl _).iff_eq]
  | .cons head tail, out, bytes, result, rest, read, total => by
      rcases bind_eq_ok_iff.mp read with ⟨first, middle, headRead, behindHead⟩
      rcases bind_eq_ok_iff.mp behindHead with ⟨others, _, tailRead, made⟩
      rcases pure_eq_ok_iff.mp made with ⟨-, rfl⟩
      rcases bind_eq_ok_iff.mp headRead with ⟨oid, frame, oidRead, received⟩
      have oidConsumed := word_consumes oidRead
      obtain rfl : frame = bytes.drop 4 := oidConsumed.eq_drop
      have decided : DecidedBy (fun size => head.recv map (some oid) size out.1)
          (head.FramesRead map out.1) head.WellFramed :=
        { null := fun _ _ _ received => head.recv_nullStateSize received
          value := fun size bytes result rest declared received =>
            head.recv_consumes_iff map (some oid) size out.1 bytes result rest declared received }
      have behind : rest <:+ middle := tail.recvFrames_forward map out.2 _ _ _ tailRead
      have members := tail.recvFrames_consumes_iff map out.2 middle others rest tailRead
      have fits := frameRead_iff decided received
      rw [List.drop_drop] at fits
      -- once the head's frame is exact, the tail starts where its announced size ends
      have headFrame : announced (bytes.drop 4) = nullStateSize ∨
          head.WellFramed (announced (bytes.drop 4)) (bytes.drop 8) →
            Consumes (8 + (announced (bytes.drop 4)).toNat : Nat) bytes middle := by
        intro fit
        have payload := consumes_of_fits decided received (by rw [List.drop_drop]; exact fit)
        have total : ((8 + (announced (bytes.drop 4)).toNat : Nat) : Int) =
            (4 : Nat) + (4 + (announced (bytes.drop 4)).toNat : Nat) := by omega
        rw [total]
        exact oidConsumed.trans payload
      rw [Fields.framesRead_cons oidRead headRead, fits]
      simp only [Fields.WellFramed]
      constructor
      · rintro ⟨consumed, fit, onwards⟩
        have frameConsumed := headFrame fit
        constructor
        · exact fit
        · rw [← frameConsumed.eq_drop]
          exact (members _).mp ⟨(frameConsumed.sub_iff behind).mp consumed, onwards⟩
      · rintro ⟨fit, wellFramed⟩
        have frameConsumed := headFrame fit
        rw [← frameConsumed.eq_drop] at wellFramed
        rcases (members _).mpr wellFramed with ⟨consumed, onwards⟩
        exact ⟨(frameConsumed.sub_iff behind).mpr consumed, fit, onwards⟩

end

/-- A successful `recv` of a value that is declared not null consumes exactly
the declared size, and reads every frame inside from exactly its bytes, if and
only if the declared sizes fit together. -/
theorem recv_consumes_declared_iff (map : OidMap) (oid : Option Oid) (s : Slot) (size : Int)
    (out : s.Val) (bytes : List UInt8) (result : s.Val) (rest : List UInt8)
    (declared : size ≠ nullStateSize)
    (received : s.recv map oid size out bytes = .ok (result, rest)) :
    (Consumes size bytes rest ∧ s.FramesRead map out bytes) ↔ s.WellFramed size bytes :=
  s.recv_consumes_iff map oid size out bytes result rest declared received

/-- A uuid that is declared with 4 bytes. -/
def shortUuid : List UInt8 :=
  List.replicate 16 7

/-- A uuid declared with four bytes is received and consumes sixteen. -/
theorem recv_uuid_declared_four :
    (4 : Int) ≠ nullStateSize ∧
      (Slot.plain (.scalar .uuid)).recv (fun _ => 0) (some 2950) 4 Scalar.uuid.default shortUuid =
        .ok ((⟨List.replicate 16 7, by simp⟩ : Scalar.uuid.Val), []) ∧
      ¬ Consumes 4 shortUuid [] := by
  refine ⟨by decide, rfl, ?_⟩
  rintro ⟨front, whole, length⟩
  rw [List.append_nil] at whole
  subst whole
  exact absurd length (by decide)

/-- Declared with sixteen bytes, it consumes what is declared. -/
theorem recv_consumes_declared_uuid : Consumes 16 shortUuid [] :=
  ((recv_consumes_declared_iff (fun _ => 0) (some 2950) (.plain (.scalar .uuid)) 16 Scalar.uuid.default
    shortUuid (⟨List.replicate 16 7, by simp⟩ : Scalar.uuid.Val) [] (by decide) rfl).mpr rfl).1

end Bozo.Io
