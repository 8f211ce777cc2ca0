import Bozo.Io.Wire

/-!
# Storing into shared objects

A frame is stored into the object itself as far as its places are its own.  The
frames for other places are passed on to the objects there.  Types are finite,
so that what is passed on goes to objects of smaller slots, and storing a frame
is one run of landings.
-/

namespace Bozo.Io

open Bozo.Memory

/-- A frame on its way to a shared object. -/
abbrev Landing :=
  Memory.Landing Nat Slot.Wire

/-! ## What is stored and what is passed on -/

section Places

variable {α β : Type}

/-- The part of a frame that is stored at a place. -/
def Place.stored (store : α → α) : Place α → Place α
  | .own object => .own (store object)
  | .shared address => .shared address

/-- The part of a frame that a place passes on: all of it, if its object is
shared. -/
def Place.passed (s : Slot) (passed : s.Object → List Landing) (wire : s.Wire) :
    Place s.Object → List Landing
  | .own object => passed object
  | .shared address => [⟨(s, address), wire⟩]

/-- What a container passes on, in the order of its items. -/
def Container.passed {bound : Option Nat} (fresh : α) (passed : α → β → List Landing)
    (out : Container bound α) (wire : ArrayWire bound β) : List Landing :=
  (List.zipWith passed (resize fresh out.items (elementFrames bound wire.size)) wire.items).flatten

end Places

mutual

/-- What an object becomes when a frame is stored into it. -/
def Ty.stored : (t : Ty) → t.Object → t.Wire → t.Object
  | .scalar _, _, wire => wire
  | .array _ element, out, wire =>
      Container.store (Place.own element.fresh)
        (fun item wire => Place.stored (element.stored · wire) item) out wire
  | .composite _ fields, out, wire => fields.stored out wire.2

def Slot.stored : (s : Slot) → s.Object → s.Wire → s.Object
  | .plain type, out, wire => Option.elim wire out (type.stored out)
  | .nullable type, out, wire =>
      Option.map (fun present =>
        Place.stored (type.stored · present) (Option.getD out (.own type.fresh))) wire
  | .null, out, _ => out

def Fields.stored : (fields : Fields) → fields.Object → fields.Wire → fields.Object
  | .nil, out, _ => out
  | .cons head tail, out, wire =>
      (out.1.stored (head.stored · wire.1.2), tail.stored out.2 wire.2)

end

mutual

/-- What an object passes on to shared ones, in order. -/
def Ty.passed : (t : Ty) → t.Object → t.Wire → List Landing
  | .scalar _, _, _ => []
  | .array _ element, out, wire =>
      Container.passed (Place.own element.fresh)
        (fun item wire => Place.passed element (element.passed · wire) wire item) out wire
  | .composite _ fields, out, wire => fields.passed out wire.2

def Slot.passed : (s : Slot) → s.Object → s.Wire → List Landing
  | .plain type, out, wire => Option.elim wire [] (type.passed out)
  | .nullable type, out, wire =>
      Option.elim wire [] fun present =>
        Place.passed (.plain type) (type.passed · present) (some present)
          (Option.getD out (.own type.fresh))
  | .null, _, _ => []

def Fields.passed : (fields : Fields) → fields.Object → fields.Wire → List Landing
  | .nil, _, _ => []
  | .cons head tail, out, wire =>
      out.1.passed head (head.passed · wire.1.2) wire.1.2 ++ tail.passed out.2 wire.2

end

/-- Storing into the objects of the heap. -/
def storing : Storing Nat Slot.Object Slot.Wire where
  store := Slot.stored
  passed := Slot.passed

/-! ## Parts are of smaller slots -/

mutual

/-- How deep the places of a type are nested. -/
def Ty.rank : Ty → Nat
  | .scalar _ => 0
  | .array _ element => element.rank + 1
  | .composite _ fields => fields.rank

def Slot.rank : Slot → Nat
  | .plain type => type.rank
  | .nullable type => type.rank + 1
  | .null => 0

def Fields.rank : Fields → Nat
  | .nil => 0
  | .cons head tail => max (head.rank + 1) tail.rank

end

theorem mem_flatten_zipWith {α β γ : Type} {f : α → β → List γ} {items : List α} {wires : List β}
    {c : γ} (member : c ∈ (List.zipWith f items wires).flatten) :
    ∃ item ∈ items, ∃ wire ∈ wires, c ∈ f item wire := by
  induction items generalizing wires with
  | nil => cases member
  | cons item items ih =>
      cases wires with
      | nil => cases member
      | cons wire wires =>
          rcases List.mem_append.mp member with here | later
          · exact ⟨item, List.mem_cons_self, wire, List.mem_cons_self, here⟩
          · rcases ih later with ⟨item', inItems, wire', inWires, here⟩
            exact ⟨item', List.mem_cons_of_mem _ inItems, wire',
              List.mem_cons_of_mem _ inWires, here⟩

theorem Place.passed_descends {s : Slot} {passed : s.Object → List Landing} {wire : s.Wire}
    (descends : ∀ object, ∀ landing ∈ passed object, landing.1.1.rank < s.rank)
    (place : Place s.Object) :
    ∀ landing ∈ place.passed s passed wire, landing.1.1.rank < s.rank + 1 := by
  intro landing member
  cases place with
  | own object => exact Nat.lt_succ_of_lt (descends object landing member)
  | shared address =>
      cases List.mem_singleton.mp member
      exact Nat.lt_succ_self _

mutual

theorem Ty.passed_descends : (t : Ty) → (object : t.Object) → (wire : t.Wire) →
    ∀ landing ∈ t.passed object wire, landing.1.1.rank < t.rank
  | .scalar _, _, _ => nofun
  | .array _ element, object, wire => by
      intro landing member
      rcases mem_flatten_zipWith member with ⟨item, -, frame, -, passed⟩
      exact item.passed_descends (fun object => element.passed_descends object frame) landing passed
  | .composite _ fields, object, wire => fields.passed_descends object wire.2

theorem Slot.passed_descends : (s : Slot) → (object : s.Object) → (wire : s.Wire) →
    ∀ landing ∈ s.passed object wire, landing.1.1.rank < s.rank
  | .plain _, _, none => nofun
  | .plain type, object, some wire => type.passed_descends object wire
  | .nullable _, _, none => nofun
  | .nullable type, _, some wire =>
      Place.passed_descends (s := .plain type) (fun object => type.passed_descends object wire) _
  | .null, _, _ => nofun

theorem Fields.passed_descends : (fields : Fields) → (object : fields.Object) →
    (wire : fields.Wire) → ∀ landing ∈ fields.passed object wire, landing.1.1.rank < fields.rank
  | .nil, _, _ => nofun
  | .cons head tail, object, wire => by
      intro landing member
      rcases List.mem_append.mp member with here | later
      · have first := object.1.passed_descends
          (fun object => head.passed_descends object wire.1.2) landing here
        exact Nat.lt_of_lt_of_le first (Nat.le_max_left ..)
      · have others := tail.passed_descends object.2 wire.2 landing later
        exact Nat.lt_of_lt_of_le others (Nat.le_max_right ..)

end

theorem storing_descends : storing.Descends Slot.rank :=
  Slot.passed_descends

/-! ## Storing is a run of landings -/

/-- A function of an object and the heap stores into the object, and lets land
in the heap what it passes on. -/
def Settles {α β : Type} (store : α × Heap → β → α × Heap) (stored : α → β → α)
    (passed : α → β → List Landing) : Prop :=
  ∀ object heap wire, (store (object, heap) wire).1 = stored object wire ∧
    ∃ landings, storing.Lands (passed object wire) heap landings (store (object, heap) wire).2

/-- Writing the object at a shared place behind what it passes on, is landing in
it. -/
theorem Settles.place {s : Slot} {β : Type} {store : s.Object × Heap → β → s.Object × Heap}
    {stored : s.Object → β → s.Object} {passed : s.Object → β → List Landing}
    (settles : Settles store stored passed) (frame : β → s.Wire)
    (same_stored : ∀ object wire, s.stored object (frame wire) = stored object wire)
    (same_passed : ∀ object wire, s.passed object (frame wire) = passed object wire) :
    Settles (fun item wire => Place.change s (store · wire) item)
      (fun item wire => Place.stored (stored · wire) item)
      (fun item wire => Place.passed s (passed · wire) (frame wire) item) := by
  intro place heap wire
  cases place with
  | own object =>
      rcases settles object heap wire with ⟨same, lands⟩
      exact ⟨congrArg Place.own same, lands⟩
  | shared address =>
      rcases settles (heap (s, address)) heap wire with ⟨same, landings, lands⟩
      have below : ∀ landing ∈ passed (heap (s, address)) wire, landing.1.1.rank < s.rank := by
        rw [← same_passed]
        exact s.passed_descends _ _
      have written := lands.update storing_descends (c := (s, address)) below
        (stored (heap (s, address)) wire)
      refine ⟨rfl, ⟨(s, address), frame wire⟩ :: landings, .land ?_⟩
      simp only [storing, Storing.land, List.append_nil, same_stored, same_passed,
        Place.change] at written ⊢
      rw [same]
      exact written

section Settles

variable {α β : Type} {store : α × Heap → β → α × Heap} {stored : α → β → α}
  {passed : α → β → List Landing}

theorem Settles.items (settles : Settles store stored passed) (items : List α) (heap : Heap)
    (wires : List β) :
    (storeItems store items heap wires).1 = List.zipWith stored items wires ∧
      ∃ landings, storing.Lands (List.zipWith passed items wires).flatten heap landings
        (storeItems store items heap wires).2 := by
  induction items generalizing heap wires with
  | nil => exact ⟨rfl, [], .done heap⟩
  | cons item items ih =>
      cases wires with
      | nil => exact ⟨rfl, [], .done heap⟩
      | cons wire wires =>
          rcases settles item heap wire with ⟨same, here, lands⟩
          rcases ih (store (item, heap) wire).2 wires with ⟨others, later, behind⟩
          simp only [storeItems, List.zipWith_cons_cons, List.flatten_cons, same, others]
          exact ⟨trivial, here ++ later, lands.append behind⟩

theorem Settles.container (bound : Option Nat) (settles : Settles store stored passed) (fresh : α) :
    Settles (fun out : Container bound α × Heap => Container.storeInto fresh store out)
      (Container.store fresh stored) (Container.passed fresh passed) := by
  intro out heap wire
  beta_reduce
  by_cases empty : wire.size = 0
  · have noItems : wire.items = [] :=
      List.length_eq_zero_iff.mp (by rw [wire.length_eq, elementFrames, if_pos empty])
    rw [Container.storeInto, dif_pos empty, Container.store_of_empty empty, Container.passed,
      noItems, List.zipWith_nil_right]
    exact ⟨rfl, [], .done heap⟩
  · rcases settles.items (resize fresh out.items (elementFrames bound wire.size)) heap
      wire.items with ⟨same, lands⟩
    rw [Container.storeInto, dif_neg empty]
    exact ⟨Container.ext (same.trans (Container.items_store empty ..).symm), lands⟩

end Settles

mutual

theorem Ty.settles : (t : Ty) → Settles t.storeInto t.stored t.passed
  | .scalar _ => fun _ heap _ => ⟨rfl, [], .done heap⟩
  | .array bound element =>
      ((element.settles).place id (fun _ _ => rfl) fun _ _ => rfl).container bound _
  | .composite _ fields => fun object heap wire => fields.settles object heap wire.2

/-- Storing a frame stores it into the object, and lets land in the heap what the
object passes on. -/
theorem Slot.settles : (s : Slot) → Settles s.storeInto s.stored s.passed
  | .plain type => by
      intro object heap wire
      cases wire with
      | none => exact ⟨rfl, [], .done heap⟩
      | some present => exact type.settles object heap present
  | .nullable type => by
      intro object heap wire
      cases wire with
      | none => exact ⟨rfl, [], .done heap⟩
      | some present =>
          have place := Settles.place (s := .plain type) type.settles some (fun _ _ => rfl)
            fun _ _ => rfl
          rcases place (Option.getD object (.own type.fresh)) heap present with ⟨same, lands⟩
          exact ⟨congrArg some same, lands⟩
  | .null => fun _ heap _ => ⟨rfl, [], .done heap⟩

theorem Fields.settles : (fields : Fields) →
    Settles fields.storeInto fields.stored fields.passed
  | .nil => fun _ heap _ => ⟨rfl, [], .done heap⟩
  | .cons head tail => by
      intro object heap wire
      have first := (head.settles).place id (fun _ _ => rfl) fun _ _ => rfl
      rcases first object.1 heap wire.1.2 with ⟨same, here, lands⟩
      rcases tail.settles object.2 _ wire.2 with ⟨others, later, behind⟩
      exact ⟨Prod.ext same others, here ++ later, lands.append behind⟩

end

end Bozo.Io
