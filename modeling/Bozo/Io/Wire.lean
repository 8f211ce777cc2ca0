import Bozo.Io.Objects

/-!
# What the wire holds

The bytes of an object can be read along the shape of its output type without
checking them and without an object to read into.  Receiving is then three
steps: read the wire, check what stands there against the output type, and
store it over the old contents.
-/

namespace Bozo.Io

open Bozo.Bytes
open Bozo.Bytes.Reader

/-- The number of element frames behind the headers of an array.  A fixed-size
container receives as many elements as it has. -/
def elementFrames (bound : Option Nat) (size : Int) : Nat :=
  if size = 0 then 0 else bound.getD size.toNat

/-- An array on the wire.  Without a dimension its size is zero. -/
structure ArrayWire (bound : Option Nat) (α : Type) where
  dimensions : Int
  elemtype : Oid
  size : Int
  items : List α
  length_eq : items.length = elementFrames bound size

mutual

/-- What the wire holds for an object that is not null. -/
def Ty.Wire : Ty → Type
  | .scalar s => s.Val
  | .array bound element => ArrayWire bound element.Wire
  | .composite _ fields => Int × fields.Wire

/-- What the wire holds for an object that may be null there. -/
def Slot.Wire : Slot → Type
  | .plain type | .nullable type => Option type.Wire
  | .null => Unit

/-- The oids and the objects that the wire holds for the members of a
composite. -/
def Fields.Wire : Fields → Type
  | .nil => Unit
  | .cons head tail => (Oid × head.Wire) × tail.Wire

end

/-! ## Reading the wire -/

/-- The headers of an array: the number of dimensions, the oid of the elements
and the size. -/
def readArrayHeader : Reader RecvError (Int × Oid × Int) := do
  let dimensions ← readInt32
  let _dataoffset ← readInt32
  let elemtype ← readWord 4
  if dimensions < 1 then
    return (dimensions, elemtype, 0)
  let size ← readInt32
  let _index ← readInt32
  return (dimensions, elemtype, size)

/-- The element frames of an array with known headers. -/
def readItems {α : Type} (bound : Option Nat) (item : Reader RecvError α)
    (header : Int × Oid × Int) : Reader RecvError (ArrayWire bound α) := do
  let items ← forEach (fun _ => item) (List.replicate (elementFrames bound header.2.2) ())
  pure
    { dimensions := header.1
      elemtype := header.2.1
      size := header.2.2
      items := items.1
      length_eq := by rw [items.2, List.length_replicate] }

/-- The payload of a frame, unless it is null. -/
def readPresent {α : Type} (size : Int) (payload : Reader RecvError α) :
    Reader RecvError (Option α) :=
  if size = nullStateSize then
    pure none
  else do
    let wire ← payload
    pure (some wire)

mutual

/-- Read an object of a declared size along its type. -/
def Ty.readWire : (t : Ty) → Int → Reader RecvError t.Wire
  | .scalar s, size => s.recv size
  | .array bound element, _ => do
      let header ← readArrayHeader
      readItems bound (recvSized element.readWire) header
  | .composite _ fields, _ => do
      let count ← readInt32
      let members ← fields.readWire
      pure (count, members)

def Slot.readWire : (s : Slot) → Int → Reader RecvError s.Wire
  | .plain type, size | .nullable type, size => readPresent size (type.readWire size)
  | .null, _ => fail .notWritable

def Fields.readWire : (fields : Fields) → Reader RecvError fields.Wire
  | .nil => pure ()
  | .cons head tail => do
      let oid ← readWord 4
      let wire ← recvSized head.readWire
      let others ← tail.readWire
      pure ((oid, wire), others)

end

/-- Read a frame along the type of the object in it. -/
def Slot.readWireFrame (s : Slot) : Reader RecvError (Oid × s.Wire) := do
  let oid ← readWord 4
  let wire ← recvSized s.readWire
  pure (oid, wire)

/-! ## Checking it -/

/-- What `fit_array_size` accepts. -/
def SizeFits : Option Nat → Int → Prop
  | none, size => 0 ≤ size
  | some n, size => size = int32 n

/-- A predicate of what is there unless it is null. -/
def OnPresent {α : Type} (atNull : Prop) (present : α → Prop) : Option α → Prop
  | none => atNull
  | some wire => present wire

mutual

/-- The checks of the receive implementations on what the wire holds. -/
def Ty.Accepts (map : OidMap) : (t : Ty) → t.Wire → Prop
  | .scalar _, _ => True
  | .array bound element, wire =>
      wire.dimensions ≤ 1 ∧ element.typeOid map = wire.elemtype ∧
        (wire.size = 0 ∨ SizeFits bound wire.size) ∧
        ∀ item ∈ wire.items, element.Accepts map none item
  | .composite _ fields, wire => wire.1 = fields.fieldsNumber ∧ fields.Accepts map wire.2

/-- The checks of `detail::recv`, with the oid that came with the frame. -/
def Slot.Accepts (map : OidMap) (oid : Option Oid) : (s : Slot) → s.Wire → Prop
  | .plain type, wire =>
      OnPresent False
        (fun present => (∀ found, oid = some found → type.typeOid map = found) ∧
          type.Accepts map present) wire
  | .nullable type, wire =>
      OnPresent True
        (fun present => (∀ found, oid = some found → type.typeOid map = found) ∧
          type.Accepts map present) wire
  | .null, _ => False

def Fields.Accepts (map : OidMap) : (fields : Fields) → fields.Wire → Prop
  | .nil, _ => True
  | .cons head tail, wire => head.Accepts map (some wire.1.1) wire.1.2 ∧ tail.Accepts map wire.2

end

/-! ## Storing it -/

theorem length_resize {α : Type} (fresh : α) (items : List α) (count : Nat) :
    (resize fresh items count).length = count := by
  simp only [resize, List.length_append, List.length_take, List.length_replicate]
  omega

/-- What a container holds after an array was received into it: its old
elements when the array has none. -/
def Container.store {bound : Option Nat} {α β : Type} (fresh : α) (replace : α → β → α)
    (out : Container bound α) (wire : ArrayWire bound β) : Container bound α :=
  if none : wire.size = 0 then
    out
  else
    { items := List.zipWith replace
        (resize fresh out.items (elementFrames bound wire.size)) wire.items
      length_eq := by
        rintro n rfl
        rw [List.length_zipWith, length_resize, wire.length_eq, Nat.min_self, elementFrames,
          if_neg none, Option.getD_some] }

section Store

variable {bound : Option Nat} {α β : Type} {wire : ArrayWire bound β}

theorem Container.store_of_empty (empty : wire.size = 0) (fresh : α) (replace : α → β → α)
    (out : Container bound α) : Container.store fresh replace out wire = out :=
  dif_pos empty

theorem Container.items_store (nonEmpty : wire.size ≠ 0) (fresh : α) (replace : α → β → α)
    (out : Container bound α) :
    (Container.store fresh replace out wire).items =
      List.zipWith replace (resize fresh out.items (elementFrames bound wire.size)) wire.items := by
  rw [Container.store, dif_neg nonEmpty]

end Store

mutual

/-- What an object holds after it was received. -/
def Ty.store : (t : Ty) → t.Val → t.Wire → t.Val
  | .scalar _, _, wire => wire
  | .array _ element, out, wire => Container.store element.default element.store out wire
  | .composite _ fields, out, wire => fields.store out wire.2

def Slot.store : (s : Slot) → s.Val → s.Wire → s.Val
  | .plain type, out, wire => Option.elim wire out (type.store out)
  | .nullable type, out, wire =>
      Option.map (type.store (Option.getD out type.default)) wire
  | .null, out, _ => out

def Fields.store : (fields : Fields) → fields.Val → fields.Wire → fields.Val
  | .nil, out, _ => out
  | .cons head tail, out, wire => (head.store out.1 wire.1.2, tail.store out.2 wire.2)

end

/-! ## Storing it into objects -/

section Storing

variable {α β : Type}

/-- Change the object at a place. -/
def Place.change (s : Slot) (store : s.Object × Heap → s.Object × Heap) :
    Place s.Object × Heap → Place s.Object × Heap
  | (.own object, heap) =>
      let stored := store (object, heap)
      (.own stored.1, stored.2)
  | (.shared address, heap) =>
      let stored := store (heap (s, address), heap)
      (.shared address, Function.update stored.2 (s, address) stored.1)

/-- Store frames into the items of an array, in order. -/
def storeItems (store : α × Heap → β → α × Heap) : List α → Heap → List β → List α × Heap
  | item :: items, heap, wire :: wires =>
      let stored := store (item, heap) wire
      let others := storeItems store items stored.2 wires
      (stored.1 :: others.1, others.2)
  | [], heap, _ | _ :: _, heap, [] => ([], heap)

theorem length_storeItems (store : α × Heap → β → α × Heap) (items : List α) (heap : Heap)
    (wires : List β) :
    (storeItems store items heap wires).1.length = min items.length wires.length := by
  induction items generalizing heap wires with
  | nil => simp only [storeItems, List.length_nil, Nat.zero_min]
  | cons item items ih =>
      cases wires with
      | nil => simp only [storeItems, List.length_nil, Nat.min_zero]
      | cons wire wires =>
          simp only [storeItems, List.length_cons, ih, Nat.add_min_add_right]

/-- Store an array into a container. -/
def Container.storeInto {bound : Option Nat} (fresh : α) (store : α × Heap → β → α × Heap)
    (out : Container bound α × Heap) (wire : ArrayWire bound β) : Container bound α × Heap :=
  if none : wire.size = 0 then
    out
  else
    let stored := storeItems store (resize fresh out.1.items (elementFrames bound wire.size)) out.2
      wire.items
    ({  items := stored.1
        length_eq := by
          rintro n rfl
          rw [length_storeItems, length_resize, wire.length_eq, Nat.min_self, elementFrames,
            if_neg none, Option.getD_some] }, stored.2)

end Storing

mutual

/-- What an object and the heap hold after a frame was received. -/
def Ty.storeInto : (t : Ty) → t.Object × Heap → t.Wire → t.Object × Heap
  | .scalar _, out, wire => (wire, out.2)
  | .array _ element, out, wire =>
      Container.storeInto (Place.own element.fresh)
        (fun item wire => Place.change element (element.storeInto · wire) item) out wire
  | .composite _ fields, out, wire => fields.storeInto out wire.2

def Slot.storeInto : (s : Slot) → s.Object × Heap → s.Wire → s.Object × Heap
  | .plain type, out, wire => Option.elim wire out (type.storeInto out)
  | .nullable type, out, wire =>
      Option.elim wire (none, out.2) fun present =>
        Prod.map some id (Place.change (.plain type) (type.storeInto · present)
          (Option.getD out.1 (.own type.fresh), out.2))
  | .null, out, _ => out

def Fields.storeInto : (fields : Fields) → fields.Object × Heap → fields.Wire →
    fields.Object × Heap
  | .nil, out, _ => out
  | .cons head tail, out, wire =>
      let first := Place.change head (head.storeInto · wire.1.2) (out.1.1, out.2)
      let others := tail.storeInto (out.1.2, first.2) wire.2
      ((first.1, others.1), others.2)

end

/-! ## Receiving is reading, checking and storing -/

/-- The number of elements that `recv_array_impl` goes on to receive. -/
def announcedSize (header : Int × Oid × Int) : Option Int :=
  if header.2.2 = 0 then none else some header.2.2

/-- The checked headers are the unchecked ones, with the checks. -/
theorem recvArrayHeader_eq_ok_iff {map : OidMap} {element : Slot} {count : Option Int}
    {bytes rest : List UInt8} :
    recvArrayHeader map element bytes = .ok (count, rest) ↔
      ∃ header, readArrayHeader bytes = .ok (header, rest) ∧ header.1 ≤ 1 ∧
        element.typeOid map = header.2.1 ∧ count = announcedSize header := by
  unfold recvArrayHeader readArrayHeader
  simp only [bind_eq_ok_iff, require_eq_ok_iff]
  constructor
  · rintro ⟨dimensions, first, dimensionsRead, offset, second, offsetRead, elemtype, third, oidRead,
      _, _, ⟨atMostOne, rfl⟩, _, _, ⟨sameOid, rfl⟩, behind⟩
    split at behind <;> rename_i noDimension
    · rcases pure_eq_ok_iff.mp behind with ⟨rfl, rfl⟩
      refine ⟨(dimensions, elemtype, 0), ⟨dimensions, first, dimensionsRead, offset, second,
        offsetRead, elemtype, _, oidRead, ?_⟩, atMostOne, sameOid, rfl⟩
      rw [if_pos noDimension]
      rfl
    · simp only [bind_eq_ok_iff] at behind
      rcases behind with ⟨size, fourth, sizeRead, index, fifth, indexRead, made⟩
      have count : count = announcedSize (dimensions, elemtype, size) ∧ rest = fifth := by
        unfold announcedSize
        split at made <;> rename_i empty
        · rw [if_pos empty]
          exact pure_eq_ok_iff.mp made
        · rw [if_neg empty]
          exact pure_eq_ok_iff.mp made
      rcases count with ⟨rfl, rfl⟩
      refine ⟨(dimensions, elemtype, size), ⟨dimensions, first, dimensionsRead, offset, second,
        offsetRead, elemtype, _, oidRead, ?_⟩, atMostOne, sameOid, rfl⟩
      rw [if_neg noDimension]
      simp only [bind_eq_ok_iff]
      exact ⟨size, fourth, sizeRead, index, rest, indexRead, rfl⟩
  · rintro ⟨header, ⟨dimensions, first, dimensionsRead, offset, second, offsetRead, elemtype, third,
      oidRead, behind⟩, atMostOne, sameOid, rfl⟩
    split at behind <;> rename_i noDimension
    · rcases pure_eq_ok_iff.mp behind with ⟨rfl, rfl⟩
      refine ⟨dimensions, first, dimensionsRead, offset, second, offsetRead, elemtype, _, oidRead,
        (), _, ⟨atMostOne, rfl⟩, (), _, ⟨sameOid, rfl⟩, ?_⟩
      rw [if_pos noDimension]
      rfl
    · simp only [bind_eq_ok_iff] at behind
      rcases behind with ⟨size, fourth, sizeRead, index, fifth, indexRead, made⟩
      rcases pure_eq_ok_iff.mp made with ⟨rfl, rfl⟩
      refine ⟨dimensions, first, dimensionsRead, offset, second, offsetRead, elemtype, _, oidRead,
        (), _, ⟨atMostOne, rfl⟩, (), _, ⟨sameOid, rfl⟩, ?_⟩
      rw [if_neg noDimension]
      simp only [bind_eq_ok_iff]
      refine ⟨size, fourth, sizeRead, index, rest, indexRead, ?_⟩
      unfold announcedSize
      split
      · rfl
      · rfl

/-- Fitting reads nothing, and resizes a container that can be resized. -/
theorem fitArraySize_eq_ok_iff {α : Type} {fresh : α} {size : Int} {bound : Option Nat}
    {out fitted : Container bound α} {bytes rest : List UInt8} (nonEmpty : size ≠ 0) :
    fitArraySize fresh size bound out bytes = .ok (fitted, rest) ↔
      SizeFits bound size ∧ fitted.items = resize fresh out.items (elementFrames bound size) ∧
        rest = bytes := by
  cases bound with
  | none =>
      simp only [fitArraySize, bind_eq_ok_iff, require_eq_ok_iff, pure_eq_ok_iff, SizeFits,
        elementFrames, nonEmpty, if_false, Option.getD_none]
      constructor
      · rintro ⟨_, _, ⟨nonneg, rfl⟩, rfl, rfl⟩
        exact ⟨nonneg, rfl, rfl⟩
      · rintro ⟨nonneg, resized, rfl⟩
        exact ⟨(), rest, ⟨nonneg, rfl⟩, Container.ext resized, rfl⟩
  | some n =>
      have unchanged : resize fresh out.items n = out.items := by
        rw [resize, out.length_eq n rfl, Nat.sub_self, List.replicate_zero, List.append_nil,
          List.take_of_length_le (Nat.le_of_eq (out.length_eq n rfl))]
      simp only [fitArraySize, bind_eq_ok_iff, require_eq_ok_iff, pure_eq_ok_iff, SizeFits,
        elementFrames, nonEmpty, if_false, Option.getD_some, unchanged]
      constructor
      · rintro ⟨_, _, ⟨equal, rfl⟩, rfl, rfl⟩
        exact ⟨equal, rfl, rfl⟩
      · rintro ⟨equal, same, rfl⟩
        exact ⟨(), rest, ⟨equal, rfl⟩, Container.ext same, rfl⟩

/-- A receive function reads the wire, checks it and stores it. -/
def Factors {α β : Type} (receive : α → Reader RecvError α) (wire : Reader RecvError β)
    (accepts : β → Prop) (replace : α → β → α) : Prop :=
  ∀ out bytes result rest, receive out bytes = .ok (result, rest) ↔
    ∃ read, wire bytes = .ok (read, rest) ∧ accepts read ∧ result = replace out read

theorem Factors.recvSized {α β : Type} {receive : Int → α → Reader RecvError α}
    {wire : Int → Reader RecvError β} {accepts : β → Prop} {replace : α → β → α}
    (each : ∀ size, Factors (receive size) (wire size) accepts replace) :
    Factors (fun out => recvSized fun size => receive size out) (recvSized wire) accepts
      replace := by
  intro out bytes result rest
  simp only [Io.recvSized, bind_eq_ok_iff, each _ _ _ _ _]
  constructor
  · rintro ⟨size, payload, sizeRead, read, wireRead, accepted, rfl⟩
    exact ⟨read, ⟨size, payload, sizeRead, wireRead⟩, accepted, rfl⟩
  · rintro ⟨read, ⟨size, payload, sizeRead, wireRead⟩, accepted, rfl⟩
    exact ⟨size, payload, sizeRead, read, wireRead, accepted, rfl⟩

theorem Factors.recvTyped {α β : Type} {receive : Option Oid → Int → α → Reader RecvError α}
    {wire : Int → Reader RecvError β} {accepts : Oid → β → Prop} {replace : α → β → α}
    (each : ∀ oid size, Factors (receive (some oid) size) (wire size) (accepts oid) replace) :
    Factors (fun out => recvTyped fun oid size => receive oid size out)
      (do
        let oid ← readWord 4
        let read ← Io.recvSized wire
        pure (oid, read))
      (fun read => accepts read.1 read.2) (fun out read => replace out read.2) := by
  intro out bytes result rest
  simp only [Io.recvTyped, bind_eq_ok_iff, pure_eq_ok_iff, Factors.recvSized (each _) _ _ _ _]
  constructor
  · rintro ⟨oid, payload, oidRead, read, wireRead, accepted, rfl⟩
    exact ⟨(oid, read), ⟨oid, payload, oidRead, read, rest, wireRead, rfl, rfl⟩, accepted, rfl⟩
  · rintro ⟨_, ⟨oid, payload, oidRead, read, _, wireRead, rfl, rfl⟩, accepted, rfl⟩
    exact ⟨oid, payload, oidRead, read, wireRead, accepted, rfl⟩

/-- The items of an array are received in order. -/
theorem recvItems_eq_ok_iff_of_factors {α β : Type} {receive : Receive α}
    {item : Reader RecvError β} {accepts : β → Prop} {store : α × Heap → β → α × Heap}
    (each : Factors receive item accepts store) {items : List α} {n : Nat}
    (length : items.length = n) {heap last : Heap} {bytes rest : List UInt8}
    {results : { results : List α // results.length = items.length }} :
    recvItems receive items heap bytes = .ok ((results, last), rest) ↔
      ∃ wires, forEach (fun _ => item) (List.replicate n ()) bytes = .ok (wires, rest) ∧
        (∀ wire ∈ wires.1, accepts wire) ∧
        (results.1, last) = storeItems store items heap wires.1 := by
  subst length
  induction items generalizing heap bytes with
  | nil =>
      constructor
      · intro run
        rcases pure_eq_ok_iff.mp run with ⟨made, rfl⟩
        cases made
        exact ⟨⟨[], rfl⟩, rfl, nofun, rfl⟩
      · rintro ⟨wires, run, -, same⟩
        rcases pure_eq_ok_iff.mp run with ⟨rfl, rfl⟩
        rcases Prod.mk.inj same with ⟨none, rfl⟩
        exact pure_eq_ok_iff.mpr ⟨Prod.ext (Subtype.ext none) rfl, rfl⟩
  | cons first items ih =>
      constructor
      · intro run
        rcases bind_eq_ok_iff.mp run with ⟨here, middle, received, behind⟩
        rcases bind_eq_ok_iff.mp behind with ⟨others, _, later, made⟩
        rcases pure_eq_ok_iff.mp made with ⟨made, rfl⟩
        cases made
        rcases (each ..).mp received with ⟨wire, read, accepted, rfl⟩
        rcases ih.mp later with ⟨wires, othersRead, allAccepted, stored⟩
        refine ⟨⟨wire :: wires.1, by simp [wires.2]⟩, ?_, ?_, ?_⟩
        · exact forEach_cons_eq_ok_iff.mpr ⟨wire, middle, wires, read, othersRead, rfl⟩
        · exact List.forall_mem_cons.mpr ⟨accepted, allAccepted⟩
        · simp only [storeItems, ← stored]
      · rintro ⟨wires, run, accepted, stored⟩
        rcases forEach_cons_eq_ok_iff.mp run with ⟨wire, middle, others, read, later, equal⟩
        rw [equal] at accepted stored
        rcases List.forall_mem_cons.mp accepted with ⟨headAccepted, othersAccepted⟩
        rcases Prod.mk.inj stored with ⟨same, rfl⟩
        have received := (each (first, heap) ..).mpr ⟨wire, read, headAccepted, rfl⟩
        have length : (storeItems store items (store (first, heap) wire).2 others.1).1.length =
            items.length := by
          rw [length_storeItems, others.2, List.length_replicate, Nat.min_self]
        have behind : recvItems receive items (store (first, heap) wire).2 middle =
            .ok ((⟨_, length⟩, _), rest) := ih.mpr ⟨others, later, othersAccepted, rfl⟩
        refine bind_eq_ok_iff.mpr ⟨_, middle, received, bind_eq_ok_iff.mpr ⟨_, rest, behind, ?_⟩⟩
        exact pure_eq_ok_iff.mpr ⟨Prod.ext (Subtype.ext same) rfl, rfl⟩

/-- The elements of an array whose headers have been read. -/
theorem recvElementsInto_eq_ok_iff {α β : Type} {bound : Option Nat} {fresh : α}
    {receive : Receive α} {item : Reader RecvError β} {accepts : β → Prop}
    {store : α × Heap → β → α × Heap} (each : Factors receive item accepts store)
    {header : Int × Oid × Int} {out result : Container bound α × Heap} {bytes rest : List UInt8} :
    recvElementsInto fresh receive (announcedSize header) out bytes = .ok (result, rest) ↔
      ∃ wire, readItems bound item header bytes = .ok (wire, rest) ∧
        ((header.2.2 = 0 ∨ SizeFits bound header.2.2) ∧ ∀ read ∈ wire.items, accepts read) ∧
        result = Container.storeInto fresh store out wire := by
  rcases header with ⟨dimensions, elemtype, size⟩
  rcases out with ⟨out, heap⟩
  simp only [announcedSize, readItems, bind_eq_ok_iff]
  by_cases empty : size = 0
  · subst empty
    simp only [if_true, recvElementsInto, true_or, true_and]
    constructor
    · intro made
      rcases pure_eq_ok_iff.mp made with ⟨rfl, rfl⟩
      exact ⟨⟨dimensions, elemtype, 0, [], rfl⟩, ⟨⟨[], rfl⟩, rest, rfl, rfl⟩,
        List.forall_mem_nil _, rfl⟩
    · rintro ⟨wire, ⟨items, _, itemsRead, made⟩, -, rfl⟩
      rcases pure_eq_ok_iff.mp made with ⟨rfl, rfl⟩
      rcases pure_eq_ok_iff.mp itemsRead with ⟨rfl, rfl⟩
      rfl
  · rw [if_neg empty, recvElementsInto, bind_eq_ok_iff]
    simp only [bind_eq_ok_iff, fitArraySize_eq_ok_iff empty, empty, false_or]
    constructor
    · rintro ⟨fitted, _, ⟨fits, resized, rfl⟩, ⟨results, last⟩, _, run, made⟩
      rcases pure_eq_ok_iff.mp made with ⟨rfl, rfl⟩
      have length : fitted.items.length = elementFrames bound size := by
        rw [resized, length_resize]
      rcases (recvItems_eq_ok_iff_of_factors each length).mp run with
        ⟨items, itemsRead, accepted, stored⟩
      refine ⟨_, ⟨items, rest, itemsRead, rfl⟩, ⟨fits, accepted⟩, ?_⟩
      have replaced := stored.trans (congrArg (storeItems store · heap items.1) resized)
      rcases Prod.mk.inj replaced with ⟨same, rfl⟩
      rw [Container.storeInto, dif_neg empty]
      exact Prod.ext (Container.ext same) rfl
    · rintro ⟨wire, ⟨items, _, itemsRead, made⟩, ⟨fits, accepted⟩, rfl⟩
      rcases pure_eq_ok_iff.mp made with ⟨rfl, rfl⟩
      have fittedLength : ∀ n, bound = some n →
          (resize fresh out.items (elementFrames bound size)).length = n := by
        rintro n rfl
        rw [length_resize, elementFrames, if_neg empty, Option.getD_some]
      let fitted : Container bound α := ⟨_, fittedLength⟩
      have length : fitted.items.length = elementFrames bound size := length_resize ..
      have same : (storeItems store fitted.items heap items.1).1.length = fitted.items.length := by
        rw [length_storeItems, items.2, List.length_replicate, length, Nat.min_self]
      refine ⟨fitted, bytes, ⟨fits, rfl, rfl⟩, (⟨_, same⟩, _), rest,
        (recvItems_eq_ok_iff_of_factors each length).mpr ⟨items, itemsRead, accepted, rfl⟩, ?_⟩
      rw [Container.storeInto, dif_neg empty]
      exact pure_eq_ok_iff.mpr ⟨rfl, rfl⟩

theorem checkOid_eq_ok_iff {map : OidMap} {type : Ty} {oid : Option Oid} {done : Unit}
    {bytes rest : List UInt8} :
    checkOid map type oid bytes = .ok (done, rest) ↔
      (∀ found, oid = some found → type.typeOid map = found) ∧ rest = bytes := by
  cases oid with
  | none => simp [checkOid, pure_eq_ok_iff]
  | some found => simp [checkOid, require_eq_ok_iff]

section Slots

variable {α β : Type} {map : OidMap} {type : Ty} {oid : Option Oid} {size : Int}
  {receive : α → Reader RecvError α} {wire : Reader RecvError β} {accepts : β → Prop}
  {replace : α → β → α}

theorem Factors.recvPlain (present : Factors receive wire accepts replace) :
    Factors (fun out => recvPlain map type oid size (receive out)) (readPresent size wire)
      (OnPresent False fun read =>
        (∀ found, oid = some found → type.typeOid map = found) ∧ accepts read)
      (fun out read => read.elim out (replace out)) := by
  intro out bytes result rest
  simp only [Io.recvPlain, bind_eq_ok_iff, checkOid_eq_ok_iff, require_eq_ok_iff, readPresent]
  constructor
  · rintro ⟨_, _, ⟨sameOid, rfl⟩, _, _, ⟨declared, rfl⟩, received⟩
    rcases (present ..).mp received with ⟨read, wireRead, accepted, rfl⟩
    rw [if_neg declared]
    exact ⟨some read, bind_eq_ok_iff.mpr ⟨read, rest, wireRead, rfl⟩, ⟨sameOid, accepted⟩, rfl⟩
  · rintro ⟨read, wireRead, accepted, rfl⟩
    split at wireRead <;> rename_i declared
    · rcases pure_eq_ok_iff.mp wireRead with ⟨rfl, rfl⟩
      exact accepted.elim
    · rcases bind_eq_ok_iff.mp wireRead with ⟨value, _, valueRead, made⟩
      rcases pure_eq_ok_iff.mp made with ⟨rfl, rfl⟩
      exact ⟨(), bytes, ⟨accepted.1, rfl⟩, (), bytes, ⟨declared, rfl⟩,
        (present ..).mpr ⟨value, valueRead, accepted.2, rfl⟩⟩

/-- What is received at a place, factors with what is received into its object. -/
theorem Factors.place {s : Slot} {receive : Receive s.Object}
    {store : s.Object × Heap → β → s.Object × Heap} (object : Factors receive wire accepts store) :
    Factors (Place.recv s receive) wire accepts
      (fun out read => Place.change s (store · read) out) := by
  rintro ⟨out, heap⟩ bytes result rest
  cases out with
  | own out =>
      simp only [Place.recv, bind_eq_ok_iff, object (out, heap) _ _ _]
      constructor
      · rintro ⟨_, _, ⟨read, wireRead, accepted, rfl⟩, made⟩
        rcases pure_eq_ok_iff.mp made with ⟨rfl, rfl⟩
        exact ⟨read, wireRead, accepted, rfl⟩
      · rintro ⟨read, wireRead, accepted, rfl⟩
        exact ⟨_, rest, ⟨read, wireRead, accepted, rfl⟩, rfl⟩
  | shared address =>
      simp only [Place.recv, bind_eq_ok_iff, object (heap (s, address), heap) _ _ _]
      constructor
      · rintro ⟨_, _, ⟨read, wireRead, accepted, rfl⟩, made⟩
        rcases pure_eq_ok_iff.mp made with ⟨rfl, rfl⟩
        exact ⟨read, wireRead, accepted, rfl⟩
      · rintro ⟨read, wireRead, accepted, rfl⟩
        exact ⟨_, rest, ⟨read, wireRead, accepted, rfl⟩, rfl⟩

theorem Factors.recvNullableInto {receive : Receive (Place type.Object)}
    {store : Place type.Object × Heap → β → Place type.Object × Heap}
    (present : Factors receive wire accepts store) :
    Factors (recvNullableInto map type oid size receive) (readPresent size wire)
      (OnPresent True fun read =>
        (∀ found, oid = some found → type.typeOid map = found) ∧ accepts read)
      (fun out read => read.elim (none, out.2) fun read =>
        Prod.map some id (store (out.1.getD (.own type.fresh), out.2) read)) := by
  rintro ⟨out, heap⟩ bytes result rest
  simp only [Io.recvNullableInto, readPresent]
  by_cases null : size = nullStateSize
  · simp only [if_pos null, pure_eq_ok_iff]
    constructor
    · rintro ⟨rfl, rfl⟩
      exact ⟨none, ⟨rfl, rfl⟩, trivial, rfl⟩
    · rintro ⟨read, ⟨rfl, rfl⟩, -, rfl⟩
      exact ⟨rfl, rfl⟩
  · simp only [if_neg null, bind_eq_ok_iff, checkOid_eq_ok_iff]
    constructor
    · rintro ⟨_, _, ⟨sameOid, rfl⟩, value, _, received, made⟩
      rcases pure_eq_ok_iff.mp made with ⟨rfl, rfl⟩
      rcases (present ..).mp received with ⟨read, wireRead, accepted, rfl⟩
      exact ⟨some read, ⟨read, rest, wireRead, rfl⟩, ⟨sameOid, accepted⟩, rfl⟩
    · rintro ⟨read, ⟨value, _, valueRead, made⟩, accepted, rfl⟩
      rcases pure_eq_ok_iff.mp made with ⟨rfl, rfl⟩
      exact ⟨(), bytes, ⟨accepted.1, rfl⟩, _, rest,
        (present ..).mpr ⟨value, valueRead, accepted.2, rfl⟩, rfl⟩

end Slots

mutual

/-- The receive implementation of a type reads the wire, checks it and stores
it. -/
theorem Ty.recvInto_factors (map : OidMap) : (t : Ty) → (size : Int) →
    Factors (t.recvInto map size) (t.readWire size) (t.Accepts map) t.storeInto
  | .scalar s, size => by
      rintro ⟨out, heap⟩ bytes result rest
      simp only [Ty.recvInto, Ty.readWire, Ty.Accepts, true_and, Ty.storeInto, bind_eq_ok_iff,
        pure_eq_ok_iff]
      constructor
      · rintro ⟨value, _, received, rfl, rfl⟩
        exact ⟨value, received, rfl⟩
      · rintro ⟨read, received, rfl⟩
        exact ⟨read, rest, received, rfl, rfl⟩
  | .array bound element, size => by
      intro out bytes result rest
      have item := (Factors.recvSized (element.recvInto_factors map none)).place
      constructor
      · intro received
        rcases bind_eq_ok_iff.mp received with ⟨_, behind, checkedHeader, elements⟩
        rcases recvArrayHeader_eq_ok_iff.mp checkedHeader with
          ⟨header, headerRead, atMostOne, sameOid, rfl⟩
        rcases (recvElementsInto_eq_ok_iff item).mp elements with
          ⟨wire, itemsRead, ⟨fits, accepted⟩, stored⟩
        have whole := bind_eq_ok_iff.mpr ⟨header, behind, headerRead, itemsRead⟩
        rcases bind_eq_ok_iff.mp itemsRead with ⟨items, _, _, made⟩
        rcases pure_eq_ok_iff.mp made with ⟨rfl, -⟩
        exact ⟨_, whole, ⟨atMostOne, sameOid, fits, accepted⟩, stored⟩
      · rintro ⟨wire, wireRead, ⟨atMostOne, sameOid, fits, accepted⟩, stored⟩
        rcases bind_eq_ok_iff.mp wireRead with ⟨header, behind, headerRead, itemsRead⟩
        have elements :=
          (recvElementsInto_eq_ok_iff item).mpr ⟨wire, itemsRead, ⟨?_, accepted⟩, stored⟩
        · rcases bind_eq_ok_iff.mp itemsRead with ⟨items, _, _, made⟩
          rcases pure_eq_ok_iff.mp made with ⟨rfl, -⟩
          exact bind_eq_ok_iff.mpr ⟨_, behind,
            recvArrayHeader_eq_ok_iff.mpr ⟨header, headerRead, atMostOne, sameOid, rfl⟩, elements⟩
        · rcases bind_eq_ok_iff.mp itemsRead with ⟨items, _, _, made⟩
          rcases pure_eq_ok_iff.mp made with ⟨rfl, -⟩
          exact fits
  | .composite kind fields, size => by
      intro out bytes result rest
      constructor
      · intro received
        rcases bind_eq_ok_iff.mp received with ⟨_, _, header, frames⟩
        rcases bind_eq_ok_iff.mp header with ⟨count, _, countRead, required⟩
        rcases require_eq_ok_iff.mp required with ⟨sameNumber, rfl⟩
        rcases (fields.recvInto_factors map ..).mp frames with ⟨wire, read, accepted, stored⟩
        exact ⟨(count, wire),
          bind_eq_ok_iff.mpr ⟨count, _, countRead, bind_eq_ok_iff.mpr ⟨wire, rest, read, rfl⟩⟩,
          ⟨sameNumber, accepted⟩, stored⟩
      · rintro ⟨_, wireRead, accepted, stored⟩
        rcases bind_eq_ok_iff.mp wireRead with ⟨count, behind, countRead, membersRead⟩
        rcases bind_eq_ok_iff.mp membersRead with ⟨wire, _, read, made⟩
        rcases pure_eq_ok_iff.mp made with ⟨rfl, rfl⟩
        have header : readAndVerifyHeader fields.fieldsNumber (.composite kind fields) bytes =
            .ok ((), behind) :=
          bind_eq_ok_iff.mpr ⟨count, behind, countRead, require_eq_ok_iff.mpr ⟨accepted.1, rfl⟩⟩
        exact bind_eq_ok_iff.mpr ⟨(), behind, header,
          (fields.recvInto_factors map ..).mpr ⟨wire, read, accepted.2, stored⟩⟩

theorem Slot.recvInto_factors (map : OidMap) (oid : Option Oid) : (s : Slot) → (size : Int) →
    Factors (s.recvInto map oid size) (s.readWire size) (s.Accepts map oid) s.storeInto
  | .plain type, size => Factors.recvPlain (type.recvInto_factors map size)
  | .nullable type, size =>
      Factors.recvNullableInto (Factors.place (s := .plain type) (type.recvInto_factors map size))
  | .null, _ => by
      intro out bytes result rest
      constructor
      · intro received
        cases received
      · rintro ⟨_, read, -, -⟩
        cases read

theorem Fields.recvInto_factors (map : OidMap) : (fields : Fields) →
    Factors (fields.recvInto map) fields.readWire (fields.Accepts map) fields.storeInto
  | .nil => by
      intro out bytes result rest
      constructor
      · intro received
        rcases pure_eq_ok_iff.mp received with ⟨rfl, rfl⟩
        exact ⟨(), rfl, trivial, rfl⟩
      · rintro ⟨_, read, -, rfl⟩
        rcases pure_eq_ok_iff.mp read with ⟨-, rfl⟩
        rfl
  | .cons head tail => by
      rintro ⟨out, heap⟩ bytes result rest
      have typed : Factors
          (fun object => recvTyped fun oid size => head.recvInto map oid size object)
          head.readWireFrame _ _ :=
        Factors.recvTyped fun oid => head.recvInto_factors map (some oid)
      have frame := typed.place
      constructor
      · intro received
        rcases bind_eq_ok_iff.mp received with ⟨first, middle, headRead, behindHead⟩
        rcases bind_eq_ok_iff.mp behindHead with ⟨others, _, tailRead, made⟩
        rcases pure_eq_ok_iff.mp made with ⟨rfl, rfl⟩
        rcases (frame ..).mp headRead with ⟨read, frameRead, accepted, rfl⟩
        rcases (tail.recvInto_factors map ..).mp tailRead with
          ⟨wires, wiresRead, tailAccepted, rfl⟩
        rcases bind_eq_ok_iff.mp frameRead with ⟨oid, payload, oidRead, behindOid⟩
        rcases bind_eq_ok_iff.mp behindOid with ⟨wire, _, wireRead, made⟩
        rcases pure_eq_ok_iff.mp made with ⟨rfl, rfl⟩
        exact ⟨((oid, wire), wires),
          bind_eq_ok_iff.mpr ⟨oid, payload, oidRead,
            bind_eq_ok_iff.mpr ⟨wire, middle, wireRead,
              bind_eq_ok_iff.mpr ⟨wires, rest, wiresRead, rfl⟩⟩⟩,
          ⟨accepted, tailAccepted⟩, rfl⟩
      · rintro ⟨_, read, accepted, rfl⟩
        rcases bind_eq_ok_iff.mp read with ⟨oid, payload, oidRead, behindOid⟩
        rcases bind_eq_ok_iff.mp behindOid with ⟨wire, middle, wireRead, behindWire⟩
        rcases bind_eq_ok_iff.mp behindWire with ⟨wires, _, wiresRead, made⟩
        rcases pure_eq_ok_iff.mp made with ⟨rfl, rfl⟩
        have frameRead : head.readWireFrame bytes = .ok ((oid, wire), middle) :=
          bind_eq_ok_iff.mpr ⟨oid, payload, oidRead,
            bind_eq_ok_iff.mpr ⟨wire, middle, wireRead, rfl⟩⟩
        have headRead := (frame (out.1, heap) ..).mpr ⟨(oid, wire), frameRead, accepted.1, rfl⟩
        refine bind_eq_ok_iff.mpr ⟨_, middle, headRead, bind_eq_ok_iff.mpr ⟨_, rest, ?_, rfl⟩⟩
        exact (tail.recvInto_factors map ..).mpr ⟨wires, wiresRead, accepted.2, rfl⟩

end

/-! ## Storing it into values -/

/-- Storing into an object that shares nothing is storing into its value. -/
def StoresAlone {α β γ : Type} (sole : α → β) (store : β × Heap → γ → β × Heap)
    (replace : α → γ → α) : Prop :=
  ∀ out heap wire, store (sole out, heap) wire = (sole (replace out wire), heap)

section StoresAlone

variable {α β γ : Type} {sole : α → β} {store : β × Heap → γ → β × Heap} {replace : α → γ → α}

theorem StoresAlone.items (alone : StoresAlone sole store replace) (items : List α) (heap : Heap)
    (wires : List γ) :
    storeItems store (items.map sole) heap wires =
      ((List.zipWith replace items wires).map sole, heap) := by
  induction items generalizing wires with
  | nil => rfl
  | cons item items ih =>
      cases wires with
      | nil => rfl
      | cons wire wires =>
          simp only [List.map_cons, storeItems, alone item heap wire, ih, List.zipWith_cons_cons]

theorem StoresAlone.container {bound : Option Nat} (alone : StoresAlone sole store replace)
    (fresh : α) (out : Container bound α) (heap : Heap) (wire : ArrayWire bound γ) :
    Container.storeInto (sole fresh) store (out.map sole, heap) wire =
      ((Container.store fresh replace out wire).map sole, heap) := by
  by_cases empty : wire.size = 0
  · rw [Container.storeInto, dif_pos empty, Container.store_of_empty empty]
  · have stored := alone.items (resize fresh out.items (elementFrames bound wire.size)) heap
      wire.items
    rw [← resize_map] at stored
    rcases Prod.mk.inj stored with ⟨same, unchanged⟩
    rw [Container.storeInto, dif_neg empty]
    refine Prod.ext (Container.ext ?_) unchanged
    simpa only [Container.map, Container.items_store empty] using same

theorem StoresAlone.nullable {type : Ty} {store : type.Object × Heap → γ → type.Object × Heap}
    {replace : type.Val → γ → type.Val} (alone : StoresAlone type.sole store replace)
    (out : Option type.Val) (heap : Heap) (present : γ) :
    Place.change (.plain type) (store · present)
        (Option.getD (out.map fun v => Place.own (type.sole v)) (.own type.fresh), heap) =
      (.own (type.sole (replace (out.getD type.default) present)), heap) := by
  have place := congrArg (fun place => Place.change (.plain type) (store · present) (place, heap))
    (type.place_sole out)
  have stored := congrArg (Prod.map Place.own id) (alone (out.getD type.default) heap present)
  exact place.trans stored

end StoresAlone

mutual

theorem Ty.storeInto_sole : (t : Ty) → StoresAlone t.sole t.storeInto t.store
  | .scalar _ => fun _ _ _ => rfl
  | .array bound element => by
      intro out heap wire
      have item : StoresAlone (fun v => Place.own (element.sole v))
          (fun item wire => Place.change element (element.storeInto · wire) item)
          element.store := by
        intro out heap wire
        simp only [Place.change, element.storeInto_sole out heap wire]
      have stored := item.container element.default out heap wire
      rw [element.sole_default] at stored
      exact stored
  | .composite _ fields => fun out heap wire => fields.storeInto_sole out heap wire.2

theorem Slot.storeInto_sole : (s : Slot) → StoresAlone s.sole s.storeInto s.store
  | .plain type => by
      intro out heap wire
      cases wire with
      | none => rfl
      | some present => exact type.storeInto_sole out heap present
  | .nullable type => by
      intro out heap wire
      cases wire with
      | none => rfl
      | some present =>
          have stored := (type.storeInto_sole).nullable out heap present
          exact congrArg (Prod.map some id) stored
  | .null => fun _ _ _ => rfl

theorem Fields.storeInto_sole : (fields : Fields) →
    StoresAlone fields.sole fields.storeInto fields.store
  | .nil => fun _ _ _ => rfl
  | .cons head tail => by
      intro out heap wire
      simp only [Fields.storeInto, Fields.store, Fields.sole, Place.change,
        head.storeInto_sole out.1 heap wire.1.2, tail.storeInto_sole out.2 heap wire.2]

end

/-- Receiving into a value reads the wire, checks it and stores it. -/
theorem Slot.recv_factors (map : OidMap) (oid : Option Oid) (s : Slot) (size : Int) :
    Factors (s.recv map oid size) (s.readWire size) (s.Accepts map oid) s.store := by
  intro out bytes result rest
  have whole := s.recvInto_factors map oid size (s.sole out, .default) bytes
    (s.sole result, .default) rest
  rw [s.recvInto_sole map oid size out] at whole
  constructor
  · intro received
    rcases whole.mp (bind_eq_ok_iff.mpr ⟨result, rest, received, rfl⟩) with
      ⟨wire, read, accepted, stored⟩
    rw [s.storeInto_sole] at stored
    exact ⟨wire, read, accepted, s.sole_injective (Prod.mk.inj stored).1⟩
  · rintro ⟨wire, read, accepted, rfl⟩
    have received := whole.mpr ⟨wire, read, accepted, (s.storeInto_sole ..).symm⟩
    rcases bind_eq_ok_iff.mp received with ⟨result, _, alone, made⟩
    rcases pure_eq_ok_iff.mp made with ⟨same, rfl⟩
    rw [s.sole_injective (Prod.mk.inj same).1]
    exact alone

end Bozo.Io
