import Bozo.Io.Recv
import Bozo.Memory.Landings

/-!
# Outputs that share objects

The receive functions change an output in place.  A part of it may not be there
alone: two `std::shared_ptr` of a container may hold the same object, and the
members of a `std::tie` are references.  An output is then an object with places
for its parts, and a heap of the objects that places share.

Where nothing is shared, an output is its value, and receiving into the one is
receiving into the other.
-/

namespace Bozo.Io

open Bozo.Bytes
open Bozo.Bytes.Reader

deriving instance DecidableEq for Ty, Slot, Fields

/-- Where a part of an output is: in the output alone, or at an address that
other parts may have as well. -/
inductive Place (α : Type)
  | own (object : α)
  | shared (address : Nat)

mutual

/-- The objects of a codec type. -/
def Ty.Object : Ty → Type
  | .scalar s => s.Val
  | .array bound element => Container bound (Place element.Object)
  | .composite _ fields => fields.Object

/-- The objects of a slot.  A nullable in the null state has no place. -/
def Slot.Object : Slot → Type
  | .plain type => type.Object
  | .nullable type => Option (Place type.Object)
  | .null => Unit

def Fields.Object : Fields → Type
  | .nil => Unit
  | .cons head tail => Place head.Object × tail.Object

end

mutual

/-- A default-constructed object shares nothing. -/
def Ty.fresh : (t : Ty) → t.Object
  | .scalar s => s.default
  | .array bound element => Container.default bound (Place.own element.fresh)
  | .composite _ fields => fields.fresh

def Slot.fresh : (s : Slot) → s.Object
  | .plain type => type.fresh
  | .nullable _ => none
  | .null => ()

def Fields.fresh : (fields : Fields) → fields.Object
  | .nil => ()
  | .cons head tail => (.own head.fresh, tail.fresh)

end

/-- The objects at the addresses. -/
abbrev Heap :=
  Memory.Objects Nat Slot.Object

/-- A heap without shared objects. -/
def Heap.default : Heap :=
  fun cell => cell.1.fresh

/-- What an output holds: its object, and the objects that places share. -/
structure Contents (s : Slot) where
  object : s.Object
  heap : Heap

/-! ## Values of outputs -/

section Values

variable {α β : Type}

/-- What can be read at a place. -/
def Place.value (own : α → β) (shared : Nat → β) : Place α → β
  | .own object => own object
  | .shared address => shared address

/-- A container of other elements. -/
def Container.map {bound : Option Nat} (f : α → β) (items : Container bound α) :
    Container bound β where
  items := items.items.map f
  length_eq n fixed := by rw [List.length_map, items.length_eq n fixed]

end Values

mutual

/-- The value of an object. -/
def Ty.value (heap : Heap) : (t : Ty) → t.Object → t.Val
  | .scalar _, object => object
  | .array _ element, object =>
      Container.map (Place.value (element.value heap)
        fun address => element.value heap (heap (element, address))) object
  | .composite _ fields, object => fields.value heap object

def Slot.value (heap : Heap) : (s : Slot) → s.Object → s.Val
  | .plain type, object => type.value heap object
  | .nullable type, object =>
      Option.map (Place.value (type.value heap)
        fun address => type.value heap (heap (.plain type, address))) object
  | .null, object => object

def Fields.value (heap : Heap) : (fields : Fields) → fields.Object → fields.Val
  | .nil, object => object
  | .cons head tail, object =>
      (object.1.value (head.value heap) fun address => head.value heap (heap (head, address)),
        tail.value heap object.2)

end

/-- The value of an output. -/
def Contents.value {s : Slot} (contents : Contents s) : s.Val :=
  s.value contents.heap contents.object

/-! ## Receiving -/

/-- A receive function of objects. -/
abbrev Receive (α : Type) :=
  α × Heap → Reader RecvError (α × Heap)

/-- Receive into the object at a place. -/
def Place.recv (s : Slot) (receive : Receive s.Object) : Receive (Place s.Object)
  | (.own object, heap) => do
      let (object, heap) ← receive (object, heap)
      pure (.own object, heap)
  | (.shared address, heap) => do
      let (object, heap) ← receive (heap (s, address), heap)
      pure (.shared address, Function.update heap (s, address) object)

/-- Receive into every item of an array, in order. -/
def recvItems {α : Type} (receive : Receive α) : (items : List α) → Heap →
    Reader RecvError ({ results : List α // results.length = items.length } × Heap)
  | [], heap => pure (⟨[], rfl⟩, heap)
  | item :: items, heap => do
      let (result, heap) ← receive (item, heap)
      let (results, heap) ← recvItems receive items heap
      pure (⟨result :: results.1, by rw [List.length_cons, results.2, List.length_cons]⟩, heap)

/-- The part of `recv_array_impl` behind the headers. -/
def recvElementsInto {α : Type} {bound : Option Nat} (fresh : α) (receive : Receive α) :
    Option Int → Receive (Container bound α)
  | none, out => pure out
  | some count, (out, heap) => do
      let fitted ← fitArraySize fresh count bound out
      let (results, heap) ← recvItems receive fitted.items heap
      pure (fitted.refill results, heap)

/-- `detail::recv` into a nullable: the object that it has stays, if there is
one. -/
def recvNullableInto (map : OidMap) (type : Ty) (oid : Option Oid) (size : Int)
    (receive : Receive (Place type.Object)) : Receive (Option (Place type.Object))
  | (out, heap) =>
    if size = nullStateSize then
      pure (none, heap)
    else do
      checkOid map type oid
      let (object, heap) ← receive (out.getD (.own type.fresh), heap)
      pure (some object, heap)

mutual

/-- The receive implementation of a type. -/
def Ty.recvInto (map : OidMap) : (t : Ty) → Int → Receive t.Object
  | .scalar s, size, (_, heap) => do
      let value ← s.recv size
      pure (value, heap)
  | .array _ element, _, out => do
      let count ← recvArrayHeader map element
      recvElementsInto (Place.own element.fresh)
        (Place.recv element fun item =>
          recvSized fun size => element.recvInto map none size item) count out
  | .composite kind fields, _, out => do
      readAndVerifyHeader fields.fieldsNumber (.composite kind fields)
      fields.recvInto map out

/-- `detail::recv`. -/
def Slot.recvInto (map : OidMap) (oid : Option Oid) : (s : Slot) → Int → Receive s.Object
  | .plain type, size, out => recvPlain map type oid size (type.recvInto map size out)
  | .nullable type, size, out =>
      recvNullableInto map type oid size (Place.recv (.plain type) (type.recvInto map size)) out
  | .null, _, _ => fail .notWritable

/-- `recv_frame` into every member of a composite, in order. -/
def Fields.recvInto (map : OidMap) : (fields : Fields) → Receive fields.Object
  | .nil, out => pure out
  | .cons head tail, (out, heap) => do
      let (first, heap) ← Place.recv head
        (fun object => recvTyped fun oid size => head.recvInto map oid size object) (out.1, heap)
      let (others, heap) ← tail.recvInto map (out.2, heap)
      pure ((first, others), heap)

end

/-- `bozo::recv` into an output. -/
def Contents.recv {s : Slot} (map : OidMap) (oid : Option Oid) (size : Int) (out : Contents s) :
    Reader RecvError (Contents s) := do
  let (object, heap) ← s.recvInto map oid size (out.object, out.heap)
  pure ⟨object, heap⟩

/-! ## Outputs that share nothing -/

mutual

/-- The object of a value, all of it in its own places. -/
def Ty.sole : (t : Ty) → t.Val → t.Object
  | .scalar _, v => v
  | .array _ element, v => Container.map (fun item => Place.own (element.sole item)) v
  | .composite _ fields, v => fields.sole v

def Slot.sole : (s : Slot) → s.Val → s.Object
  | .plain type, v => type.sole v
  | .nullable type, v => Option.map (fun v => Place.own (type.sole v)) v
  | .null, v => v

def Fields.sole : (fields : Fields) → fields.Val → fields.Object
  | .nil, v => v
  | .cons head tail, v => (.own (head.sole v.1), tail.sole v.2)

end

mutual

theorem Ty.sole_default : (t : Ty) → t.sole t.default = t.fresh
  | .scalar _ => rfl
  | .array bound element => by
      apply Container.ext
      simp only [Ty.sole, Ty.default, Ty.fresh, Container.map, Container.default,
        List.map_replicate, element.sole_default]
  | .composite _ fields => fields.sole_default

theorem Slot.sole_default : (s : Slot) → s.sole s.default = s.fresh
  | .plain type => type.sole_default
  | .nullable _ => rfl
  | .null => rfl

theorem Fields.sole_default : (fields : Fields) → fields.sole fields.default = fields.fresh
  | .nil => rfl
  | .cons head tail => Prod.ext (congrArg Place.own head.sole_default) tail.sole_default

end

mutual

theorem Ty.value_sole (heap : Heap) : (t : Ty) → (v : t.Val) → t.value heap (t.sole v) = v
  | .scalar _, _ => rfl
  | .array _ element, v => by
      apply Container.ext
      simp only [Ty.sole, Ty.value, Container.map, List.map_map]
      apply List.map_id''
      exact element.value_sole heap
  | .composite _ fields, v => fields.value_sole heap v

theorem Slot.value_sole (heap : Heap) : (s : Slot) → (v : s.Val) → s.value heap (s.sole v) = v
  | .plain type, v => type.value_sole heap v
  | .nullable _, none => rfl
  | .nullable type, some v => congrArg some (type.value_sole heap v)
  | .null, _ => rfl

theorem Fields.value_sole (heap : Heap) : (fields : Fields) → (v : fields.Val) →
    fields.value heap (fields.sole v) = v
  | .nil, _ => rfl
  | .cons head tail, v => Prod.ext (head.value_sole heap v.1) (tail.value_sole heap v.2)

end

theorem Slot.sole_injective (s : Slot) : Function.Injective s.sole :=
  Function.LeftInverse.injective (s.value_sole .default)

/-- The place that a nullable has behind `init_nullable`. -/
theorem Ty.place_sole (t : Ty) (out : Option t.Val) :
    Option.getD (out.map fun v => Place.own (t.sole v)) (.own t.fresh) =
      .own (t.sole (out.getD t.default)) := by
  cases out with
  | none => exact congrArg Place.own t.sole_default.symm
  | some v => rfl

/-- Receiving into an object that shares nothing is receiving into its value. -/
def Alone {α β : Type} (sole : α → β) (receive : Receive β) (plain : α → Reader RecvError α) :
    Prop :=
  ∀ out heap, receive (sole out, heap) = do
    let result ← plain out
    pure (sole result, heap)

section Alone

variable {α β : Type} {sole : α → β} {receive : Receive β} {plain : α → Reader RecvError α}

theorem Alone.place {s : Slot} {sole : α → s.Object} {receive : Receive s.Object}
    (alone : Alone sole receive plain) :
    Alone (fun out => Place.own (sole out)) (Place.recv s receive) plain := by
  intro out heap
  simp only [Place.recv, alone out heap, bind_assoc, pure_bind]

theorem recvItems_cons (receive : Receive β) (item : β) (items : List β) (heap : Heap) :
    recvItems receive (item :: items) heap = (do
      let (result, heap) ← receive (item, heap)
      let (results, heap) ← recvItems receive items heap
      pure (⟨result :: results.1, by rw [List.length_cons, results.2, List.length_cons]⟩, heap)) :=
  rfl

theorem Alone.items (alone : Alone sole receive plain) (items : List α) (heap : Heap) :
    recvItems receive (items.map sole) heap = (do
      let results ← forEach plain items
      pure (⟨results.1.map sole, by rw [List.length_map, List.length_map, results.2]⟩, heap)) := by
  induction items with
  | nil => rfl
  | cons item items ih =>
      refine (recvItems_cons ..).trans ?_
      simp only [forEach, alone item heap, ih, bind_assoc, pure_bind]
      rfl

theorem resize_map (sole : α → β) (fresh : α) (items : List α) (count : Nat) :
    resize (sole fresh) (items.map sole) count = (resize fresh items count).map sole := by
  simp only [resize, List.map_append, List.map_take, List.map_replicate, List.length_map]

theorem fitArraySize_map (sole : α → β) (fresh : α) (count : Int) (bound : Option Nat)
    (out : Container bound α) :
    fitArraySize (sole fresh) count bound (out.map sole) = (do
      let fitted ← fitArraySize fresh count bound out
      pure (fitted.map sole)) := by
  cases bound with
  | none =>
      simp only [fitArraySize, Container.map, resize_map, bind_assoc, pure_bind]
  | some n => simp only [fitArraySize, bind_assoc, pure_bind]

theorem Alone.elements {bound : Option Nat} {fresh : α} (alone : Alone sole receive plain)
    (count : Option Int) :
    Alone (fun out : Container bound α => out.map sole)
      (recvElementsInto (sole fresh) receive count)
      (fun out => recvElements fresh plain out count) := by
  intro out heap
  cases count with
  | none => rfl
  | some count =>
      simp only [recvElementsInto, recvElements, fitArraySize_map, bind_assoc, pure_bind]
      apply bind_congr
      intro fitted
      simp only [Container.map, alone.items, bind_assoc, pure_bind]
      rfl

theorem Alone.nullable {type : Ty} {receive : Receive (Place type.Object)}
    {plain : type.Val → Reader RecvError type.Val}
    (alone : Alone (fun v => Place.own (type.sole v)) receive plain) (map : OidMap)
    (oid : Option Oid) (size : Int) :
    Alone (Option.map fun v => Place.own (type.sole v)) (recvNullableInto map type oid size receive)
      (fun out => recvNullable map type oid size (plain (out.getD type.default))) := by
  intro out heap
  simp only [recvNullableInto, recvNullable, type.place_sole, alone _ heap]
  split
  · rfl
  · simp only [bind_assoc, pure_bind, Option.map_some]

end Alone

mutual

theorem Ty.recvInto_sole (map : OidMap) : (t : Ty) → (size : Int) →
    Alone t.sole (t.recvInto map size) (t.recvImpl map size)
  | .scalar _, _ => fun _ _ => rfl
  | .array bound element, size => by
      intro out heap
      have item : Alone element.sole
          (fun item => recvSized fun size => element.recvInto map none size item)
          (fun item => recvSized fun size => element.recv map none size item) := by
        intro item heap
        simp only [recvSized, element.recvInto_sole map none _ item heap, bind_assoc]
      refine Eq.trans ?_ (bind_assoc ..).symm
      apply bind_congr
      intro count
      rw [← element.sole_default]
      exact item.place.elements count out heap
  | .composite kind fields, size => by
      intro out heap
      refine Eq.trans ?_ (bind_assoc ..).symm
      apply bind_congr
      intro _
      exact fields.recvInto_sole map out heap

/-- On outputs that share nothing, the receive function of objects is the one of
values. -/
theorem Slot.recvInto_sole (map : OidMap) (oid : Option Oid) : (s : Slot) → (size : Int) →
    Alone s.sole (s.recvInto map oid size) (s.recv map oid size)
  | .plain type, size => by
      intro out heap
      simp only [Slot.recvInto, Slot.recv, recvPlain, bind_assoc]
      apply bind_congr
      intro _
      refine Eq.trans ?_ (bind_assoc ..).symm
      apply bind_congr
      intro _
      exact type.recvInto_sole map size out heap
  | .nullable type, size =>
      (type.recvInto_sole map size).place.nullable map oid size
  | .null, _ => fun _ _ => rfl

theorem Fields.recvInto_sole (map : OidMap) : (fields : Fields) →
    Alone fields.sole (fields.recvInto map) (fields.recvFrames map)
  | .nil => fun _ _ => rfl
  | .cons head tail => by
      intro out heap
      have first : Alone head.sole
          (fun object => recvTyped fun oid size => head.recvInto map oid size object)
          (fun out => recvTyped fun oid size => head.recv map oid size out) := by
        intro out heap
        simp only [recvTyped, recvSized, head.recvInto_sole map _ _ out heap, bind_assoc]
      simp only [Fields.recvInto, Fields.recvFrames, Fields.sole, first.place out.1 heap,
        tail.recvInto_sole map out.2 _, bind_assoc, pure_bind]
      rfl

end

end Bozo.Io
