import Bozo.Io.Sharing
import Mathlib.Data.List.Forall2

/-!
# The old contents of an output object

Outputs are reused: a row may be received into an object that holds an earlier
one.  Receiving replaces the old contents, and the object shows what the wire
holds and nothing else, exactly when no array without elements is received into
a container that has or may have some, and no two values are received into one
object that parts of the output share.
-/

namespace Bozo.Io

open Bozo.Bytes
open Bozo.Bytes.Reader

/-! ## A value against the wire -/

/-- A container has as many items as its array announces, and each of them shows
its own frame. -/
def Container.Shows {bound : Option Nat} {α β : Type} (shows : α → β → Prop)
    (v : Container bound α) (wire : ArrayWire bound β) : Prop :=
  (v.items.length : Int) = wire.size ∧ List.Forall₂ shows v.items wire.items

mutual

/-- A value is exactly what is on the wire. -/
def Ty.Shows : (t : Ty) → t.Val → t.Wire → Prop
  | .scalar _, v, wire => v = wire
  | .array _ element, v, wire => Container.Shows element.Shows v wire
  | .composite _ fields, v, wire => fields.Shows v wire.2

def Slot.Shows : (s : Slot) → s.Val → s.Wire → Prop
  | .plain type, v, wire => OnPresent False (type.Shows v) wire
  | .nullable type, v, wire => Option.Rel type.Shows v wire
  | .null, _, _ => True

def Fields.Shows : (fields : Fields) → fields.Val → fields.Wire → Prop
  | .nil, _, _ => True
  | .cons head tail, v, wire => head.Shows v.1 wire.1.2 ∧ tail.Shows v.2 wire.2

end

/-! ## What is on the wire determines the object -/

theorem eq_of_forall₂ {α β : Type} {shows : α → β → Prop}
    (unique : ∀ first second wire, shows first wire → shows second wire → first = second)
    {firsts seconds : List α} {wires : List β} (left : List.Forall₂ shows firsts wires)
    (right : List.Forall₂ shows seconds wires) : firsts = seconds := by
  induction left generalizing seconds with
  | nil =>
      cases right
      rfl
  | cons here _ ih =>
      cases right with
      | cons there onwards => rw [unique _ _ _ here there, ih onwards]

mutual

theorem Ty.shows_unique : (t : Ty) → (first second : t.Val) → (wire : t.Wire) →
    t.Shows first wire → t.Shows second wire → first = second
  | .scalar _, _, _, _, left, right => left.trans right.symm
  | .array _ element, _, _, _, left, right =>
      Container.ext (eq_of_forall₂ element.shows_unique left.2 right.2)
  | .composite _ fields, first, second, wire, left, right =>
      fields.shows_unique first second wire.2 left right

theorem Slot.shows_unique : (s : Slot) → (first second : s.Val) → (wire : s.Wire) →
    s.Shows first wire → s.Shows second wire → first = second
  | .plain _, _, _, none, left, _ => left.elim
  | .plain type, first, second, some wire, left, right =>
      type.shows_unique first second wire left right
  | .nullable type, _, _, _, left, right => by
      cases left with
      | none =>
          cases right
          rfl
      | some shown =>
          cases right with
          | some shownToo => rw [type.shows_unique _ _ _ shown shownToo]
  | .null, _, _, _, _, _ => rfl

theorem Fields.shows_unique : (fields : Fields) → (first second : fields.Val) →
    (wire : fields.Wire) → fields.Shows first wire → fields.Shows second wire → first = second
  | .nil, _, _, _, _, _ => rfl
  | .cons head tail, _, _, _, left, right =>
      Prod.ext (head.shows_unique _ _ _ left.1 right.1) (tail.shows_unique _ _ _ left.2 right.2)

end

/-! ## Lists of places, values and frames -/

section Lists

variable {α β γ δ : Type} {P R : α → β → Prop} {Q : β → γ → Prop} {C : δ → Prop} {store : α → γ → α}
  {passed : α → γ → List δ} {items : List α} {values : List β} {wires : List γ}

theorem forall₂_zipWith (each : ∀ item v wire, Q v wire → P item v → R (store item wire) v)
    (shown : List.Forall₂ Q values wires) (fit : List.Forall₂ P items values) :
    List.Forall₂ R (List.zipWith store items wires) values := by
  induction shown generalizing items with
  | nil =>
      cases fit
      exact .nil
  | cons here _ ih =>
      cases fit with
      | cons first others => exact .cons (each _ _ _ here first) (ih others)

theorem forall₂_of_zipWith (each : ∀ item v wire, Q v wire → R (store item wire) v → P item v)
    (shown : List.Forall₂ Q values wires) (length : items.length = values.length)
    (stored : List.Forall₂ R (List.zipWith store items wires) values) :
    List.Forall₂ P items values := by
  induction shown generalizing items with
  | nil =>
      rw [List.length_nil, List.length_eq_zero_iff] at length
      subst length
      exact .nil
  | cons here _ ih =>
      cases items with
      | nil => cases length
      | cons item items =>
          cases stored with
          | cons first others =>
              exact .cons (each _ _ _ here first) (ih (Nat.succ.inj length) others)

theorem forall₂_of_flatten
    (each : ∀ item v wire, Q v wire → P item v → (∀ x ∈ passed item wire, C x) → R item v)
    (shown : List.Forall₂ Q values wires) (fit : List.Forall₂ P items values)
    (all : ∀ x ∈ (List.zipWith passed items wires).flatten, C x) :
    List.Forall₂ R items values := by
  induction shown generalizing items with
  | nil =>
      cases fit
      exact .nil
  | cons here _ ih =>
      cases fit with
      | cons first others =>
          rcases List.forall_mem_append.mp all with ⟨inFirst, inOthers⟩
          exact .cons (each _ _ _ here first inFirst) (ih others inOthers)

theorem forall_flatten (each : ∀ item v wire, Q v wire → P item v → ∀ x ∈ passed item wire, C x)
    (shown : List.Forall₂ Q values wires) (fit : List.Forall₂ P items values) :
    ∀ x ∈ (List.zipWith passed items wires).flatten, C x := by
  induction shown generalizing items with
  | nil =>
      cases fit
      exact nofun
  | cons here _ ih =>
      cases fit with
      | cons first others =>
          exact List.forall_mem_append.mpr ⟨each _ _ _ here first, ih others⟩

theorem map_eq_iff_forall₂ {f : α → β} (each : ∀ item v, f item = v ↔ P item v) :
    items.map f = values ↔ List.Forall₂ P items values := by
  rw [← List.forall₂_eq_eq_eq, List.forall₂_map_left_iff]
  constructor
  · exact List.Forall₂.imp fun item v => (each item v).mp
  · exact List.Forall₂.imp fun item v => (each item v).mpr

theorem map_eq_iff_rel {f : α → β} (each : ∀ item v, f item = v ↔ P item v) {item : Option α}
    {v : Option β} : item.map f = v ↔ Option.Rel P item v := by
  constructor
  · rintro rfl
    cases item with
    | none => exact .none
    | some item => exact .some ((each item _).mp rfl)
  · intro held
    cases held with
    | none => rfl
    | some here => exact congrArg some ((each _ _).mpr here)

theorem resize_eq_self (fresh : α) {count : Nat} (length : items.length = count) :
    resize fresh items count = items := by
  rw [resize, ← length, List.take_length, Nat.sub_self, List.replicate_zero, List.append_nil]

/-- The frames of an array are as many as the elements that show them. -/
theorem elementFrames_eq {bound : Option Nat} {wire : ArrayWire bound γ}
    (shown : List.Forall₂ Q values wire.items) : elementFrames bound wire.size = values.length := by
  rw [← wire.length_eq, shown.length_eq]

end Lists

section Containers

variable {bound : Option Nat} {α β γ : Type} {fits holds : α → β → Prop} {shows : β → γ → Prop}
  {C : Landing → Prop} {fresh : α} {store : α → γ → α} {passed : α → γ → List Landing}
  {out : Container bound α} {v : Container bound β} {wire : ArrayWire bound γ}

/-- A value can replace the items of a container. -/
def Container.Fits (fresh : α) (fits : α → β → Prop) (out : Container bound α)
    (v : Container bound β) : Prop :=
  (v.items = [] → out.items = []) ∧
    List.Forall₂ fits (resize fresh out.items v.items.length) v.items

theorem Container.Fits.imp {other : α → β → Prop} (each : ∀ item v, fits item v → other item v)
    (fit : out.Fits fresh fits v) : out.Fits fresh other v :=
  ⟨fit.1, fit.2.imp each⟩

theorem Container.fits_of_holds (each : ∀ item v, holds item v → fits item v)
    (held : List.Forall₂ holds out.items v.items) : out.Fits fresh fits v := by
  have length := held.length_eq
  constructor
  · intro none
    rw [none] at length
    exact List.length_eq_zero_iff.mp length
  · rw [resize_eq_self fresh length]
    exact held.imp each

theorem Container.holds_store (each : ∀ item v frame, shows v frame → fits item v →
      holds (store item frame) v) (shown : v.Shows shows wire) (fit : out.Fits fresh fits v) :
    List.Forall₂ holds (out.store fresh store wire).items v.items := by
  rcases shown with ⟨size, shown⟩
  by_cases empty : wire.size = 0
  · have none : v.items = [] := List.length_eq_zero_iff.mp (Int.ofNat_eq_zero.mp (size.trans empty))
    rw [Container.store_of_empty empty, fit.1 none, none]
    exact .nil
  · rw [Container.items_store empty, elementFrames_eq shown]
    exact forall₂_zipWith each shown fit.2

theorem Container.fits_of_store (each : ∀ item v frame, shows v frame → fits (store item frame) v →
      fits item v) (shown : v.Shows shows wire)
    (fit : (out.store fresh store wire).Fits fresh fits v) :
    out.Fits fresh fits v := by
  rcases shown with ⟨size, shown⟩
  by_cases empty : wire.size = 0
  · rwa [Container.store_of_empty empty] at fit
  · have length : (resize fresh out.items v.items.length).length = v.items.length :=
      length_resize ..
    have same : (List.zipWith store (resize fresh out.items v.items.length) wire.items).length =
        v.items.length := by
      rw [List.length_zipWith, length, shown.length_eq, Nat.min_self]
    have stored := fit.2
    rw [Container.items_store empty, elementFrames_eq shown, resize_eq_self fresh same] at stored
    constructor
    · intro none
      rw [none] at size
      exact absurd size.symm empty
    · exact forall₂_of_zipWith each shown length stored

theorem Container.fits_of_passed {other : α → β → Prop} (each : ∀ item v frame, shows v frame →
      fits item v → (∀ x ∈ passed item frame, C x) → other item v) (shown : v.Shows shows wire)
    (fit : out.Fits fresh fits v) (all : ∀ x ∈ out.passed fresh passed wire, C x) :
    out.Fits fresh other v := by
  rw [Container.passed, elementFrames_eq shown.2] at all
  exact ⟨fit.1, forall₂_of_flatten each shown.2 fit.2 all⟩

theorem Container.forall_passed (each : ∀ item v frame, shows v frame → fits item v →
      ∀ x ∈ passed item frame, C x) (shown : v.Shows shows wire) (fit : out.Fits fresh fits v) :
    ∀ x ∈ out.passed fresh passed wire, C x := by
  rw [Container.passed, elementFrames_eq shown.2]
  exact forall_flatten each shown.2 fit.2

end Containers

/-! ## Which prior contents are replaced -/

/-- What shared objects are to take, or what they hold. -/
abbrev Into :=
  (c : Memory.Cell Slot Nat) → c.1.Val → Prop

/-- What an object is, at a place of it, or what shared objects are. -/
def Place.Meets (s : Slot) (into : Into) (own : s.Object → s.Val → Prop) :
    Place s.Object → s.Val → Prop
  | .own object, v => own object v
  | .shared address, v => into (s, address) v

mutual

/-- A value can replace all that an object holds.  An array without elements
leaves a container as it is, which therefore has to be empty, and shared objects
must be given the same value wherever they are met. -/
def Ty.Fits (into : Into) : (t : Ty) → t.Object → t.Val → Prop
  | .scalar _, _, _ => True
  | .array _ element, object, v =>
      Container.Fits (.own element.fresh) (Place.Meets element into (element.Fits into)) object v
  | .composite _ fields, object, v => fields.Fits into object v

def Slot.Fits (into : Into) : (s : Slot) → s.Object → s.Val → Prop
  | .plain type, object, v => type.Fits into object v
  | .nullable type, object, v =>
      ∀ present, v = some present →
        Place.Meets (.plain type) into (type.Fits into) (Option.getD object (.own type.fresh))
          present
  | .null, _, _ => True

def Fields.Fits (into : Into) : (fields : Fields) → fields.Object → fields.Val → Prop
  | .nil, _, _ => True
  | .cons head tail, object, v =>
      Place.Meets head into (head.Fits into) object.1 v.1 ∧ tail.Fits into object.2 v.2

end

mutual

/-- An object holds a value. -/
def Ty.Has (into : Into) : (t : Ty) → t.Object → t.Val → Prop
  | .scalar _, object, v => object = v
  | .array _ element, object, v =>
      List.Forall₂ (Place.Meets element into (element.Has into)) object.items v.items
  | .composite _ fields, object, v => fields.Has into object v

def Slot.Has (into : Into) : (s : Slot) → s.Object → s.Val → Prop
  | .plain type, object, v => type.Has into object v
  | .nullable type, object, v =>
      Option.Rel (Place.Meets (.plain type) into (type.Has into)) object v
  | .null, _, _ => True

def Fields.Has (into : Into) : (fields : Fields) → fields.Object → fields.Val → Prop
  | .nil, _, _ => True
  | .cons head tail, object, v =>
      Place.Meets head into (head.Has into) object.1 v.1 ∧ tail.Has into object.2 v.2

end

/-! ## What shared objects take or hold -/

section Mono

variable {into more : Into} (each : ∀ c v, into c v → more c v)
include each

theorem Place.Meets.mono {s : Slot} {own other : s.Object → s.Val → Prop}
    (here : ∀ object v, own object v → other object v) :
    ∀ (place : Place s.Object) (v : s.Val), place.Meets s into own v → place.Meets s more other v
  | .own object, v => here object v
  | .shared address, v => each (s, address) v

mutual

theorem Ty.Fits.mono : (t : Ty) → (object : t.Object) → (v : t.Val) → t.Fits into object v →
    t.Fits more object v
  | .scalar _, _, _, _ => trivial
  | .array _ element, _, _, fit =>
      Container.Fits.imp (Place.Meets.mono each (Slot.Fits.mono element)) fit
  | .composite _ fields, object, v, fit => Fields.Fits.mono fields object v fit

theorem Slot.Fits.mono : (s : Slot) → (object : s.Object) → (v : s.Val) → s.Fits into object v →
    s.Fits more object v
  | .plain type, object, v, fit => Ty.Fits.mono type object v fit
  | .nullable type, _, _, fit => fun present known =>
      Place.Meets.mono (s := .plain type) each (Ty.Fits.mono type) _ present (fit present known)
  | .null, _, _, _ => trivial

theorem Fields.Fits.mono : (fields : Fields) → (object : fields.Object) → (v : fields.Val) →
    fields.Fits into object v → fields.Fits more object v
  | .nil, _, _, _ => trivial
  | .cons head tail, object, v, fit =>
      ⟨Place.Meets.mono each (Slot.Fits.mono head) object.1 v.1 fit.1,
        Fields.Fits.mono tail object.2 v.2 fit.2⟩

end

end Mono

section Mono

variable {into more : Into} (each : ∀ c v, into c v → more c v)
include each

mutual

theorem Ty.Has.mono : (t : Ty) → (object : t.Object) → (v : t.Val) → t.Has into object v →
    t.Has more object v
  | .scalar _, _, _, held => held
  | .array _ element, _, _, held =>
      held.imp fun place v => Place.Meets.mono each (Slot.Has.mono element) place v
  | .composite _ fields, object, v, held => Fields.Has.mono fields object v held

theorem Slot.Has.mono : (s : Slot) → (object : s.Object) → (v : s.Val) →
    s.Has into object v → s.Has more object v
  | .plain type, object, v, held => Ty.Has.mono type object v held
  | .nullable type, _, _, held => by
      cases held with
      | none => exact .none
      | some here =>
          exact .some (Place.Meets.mono (s := .plain type) each (Ty.Has.mono type) _ _ here)
  | .null, _, _, _ => trivial

theorem Fields.Has.mono : (fields : Fields) → (object : fields.Object) → (v : fields.Val) →
    fields.Has into object v → fields.Has more object v
  | .nil, _, _, _ => trivial
  | .cons head tail, object, v, held =>
      ⟨Place.Meets.mono each (Slot.Has.mono head) object.1 v.1 held.1,
        Fields.Has.mono tail object.2 v.2 held.2⟩

end

end Mono

section Holding

variable {into : Into}

mutual

theorem Ty.fits_of_holds : (t : Ty) → (object : t.Object) → (v : t.Val) →
    t.Has into object v → t.Fits into object v
  | .scalar _, _, _, _ => trivial
  | .array _ element, _, _, held =>
      Container.fits_of_holds (Place.Meets.mono (fun _ _ => id) element.fits_of_holds) held
  | .composite _ fields, object, v, held => fields.fits_of_holds object v held

/-- The value that an object holds can replace what it holds. -/
theorem Slot.fits_of_holds : (s : Slot) → (object : s.Object) → (v : s.Val) →
    s.Has into object v → s.Fits into object v
  | .plain type, object, v, held => type.fits_of_holds object v held
  | .nullable type, _, _, held => by
      rintro present rfl
      cases held with
      | some here =>
          exact Place.Meets.mono (s := .plain type) (fun _ _ => id) type.fits_of_holds _ _ here
  | .null, _, _, _ => trivial

theorem Fields.fits_of_holds : (fields : Fields) → (object : fields.Object) → (v : fields.Val) →
    fields.Has into object v → fields.Fits into object v
  | .nil, _, _, _ => trivial
  | .cons head tail, object, v, held =>
      ⟨Place.Meets.mono (fun _ _ => id) head.fits_of_holds object.1 v.1 held.1,
        tail.fits_of_holds object.2 v.2 held.2⟩

end

/-! ## Storing a frame -/

theorem Place.holds_stored {s : Slot} {store : s.Object → s.Object} {v : s.Val}
    (each : ∀ object, s.Fits into object v → s.Has into (store object) v) :
    ∀ place : Place s.Object, place.Meets s into (s.Fits into) v →
      (place.stored store).Meets s into (s.Has into) v
  | .own object, fit => each object fit
  | .shared _, fit => fit

theorem Place.fits_of_stored {s : Slot} {store : s.Object → s.Object} {v : s.Val}
    (each : ∀ object, s.Fits into (store object) v → s.Fits into object v) :
    ∀ place : Place s.Object, (place.stored store).Meets s into (s.Fits into) v →
      place.Meets s into (s.Fits into) v
  | .own object, fit => each object fit
  | .shared _, fit => fit

mutual

theorem Ty.holds_stored : (t : Ty) → (object : t.Object) → (v : t.Val) → (wire : t.Wire) →
    t.Shows v wire → t.Fits into object v → t.Has into (t.stored object wire) v
  | .scalar _, _, _, _, shown, _ => shown.symm
  | .array _ element, _, _, _, shown, fit =>
      Container.holds_store (fun place v frame shows => Place.holds_stored
        (fun object => element.holds_stored object v frame shows) place) shown fit
  | .composite _ fields, object, v, wire, shown, fit =>
      fields.holds_stored object v wire.2 shown fit

/-- An object holds the value that a frame shows, where it fits. -/
theorem Slot.holds_stored : (s : Slot) → (object : s.Object) → (v : s.Val) → (wire : s.Wire) →
    s.Shows v wire → s.Fits into object v → s.Has into (s.stored object wire) v
  | .plain _, _, _, none, shown, _ => shown.elim
  | .plain type, object, v, some wire, shown, fit => type.holds_stored object v wire shown fit
  | .nullable type, _, _, wire, shown, fit => by
      cases shown with
      | none => exact .none
      | some here =>
          exact .some (Place.holds_stored (s := .plain type)
            (fun object => type.holds_stored object _ _ here) _ (fit _ rfl))
  | .null, _, _, _, _, _ => trivial

theorem Fields.holds_stored : (fields : Fields) → (object : fields.Object) → (v : fields.Val) →
    (wire : fields.Wire) → fields.Shows v wire → fields.Fits into object v →
      fields.Has into (fields.stored object wire) v
  | .nil, _, _, _, _, _ => trivial
  | .cons head tail, object, v, wire, shown, fit =>
      ⟨Place.holds_stored (fun object => head.holds_stored object v.1 wire.1.2 shown.1) object.1
          fit.1,
        tail.holds_stored object.2 v.2 wire.2 shown.2 fit.2⟩

end

mutual

theorem Ty.fits_of_stored : (t : Ty) → (object : t.Object) → (v : t.Val) → (wire : t.Wire) →
    t.Shows v wire → t.Fits into (t.stored object wire) v → t.Fits into object v
  | .scalar _, _, _, _, _, _ => trivial
  | .array _ element, _, _, _, shown, fit =>
      Container.fits_of_store (fun place v frame shows => Place.fits_of_stored
        (fun object => element.fits_of_stored object v frame shows) place) shown fit
  | .composite _ fields, object, v, wire, shown, fit =>
      fields.fits_of_stored object v wire.2 shown fit

/-- What fits behind a frame that shows it, did so before. -/
theorem Slot.fits_of_stored : (s : Slot) → (object : s.Object) → (v : s.Val) → (wire : s.Wire) →
    s.Shows v wire → s.Fits into (s.stored object wire) v → s.Fits into object v
  | .plain _, _, _, none, shown, _ => shown.elim
  | .plain type, object, v, some wire, shown, fit => type.fits_of_stored object v wire shown fit
  | .nullable type, _, _, wire, shown, fit => by
      rintro present rfl
      cases shown with
      | some here =>
          exact Place.fits_of_stored (s := .plain type)
            (fun object => type.fits_of_stored object _ _ here) _ (fit _ rfl)
  | .null, _, _, _, _, _ => trivial

theorem Fields.fits_of_stored : (fields : Fields) → (object : fields.Object) →
    (v : fields.Val) → (wire : fields.Wire) → fields.Shows v wire →
      fields.Fits into (fields.stored object wire) v → fields.Fits into object v
  | .nil, _, _, _, _, _ => trivial
  | .cons head tail, object, v, wire, shown, fit =>
      ⟨Place.fits_of_stored (fun object => head.fits_of_stored object v.1 wire.1.2 shown.1)
          object.1 fit.1,
        tail.fits_of_stored object.2 v.2 wire.2 shown.2 fit.2⟩

end

end Holding

/-! ## What is passed on -/

section Passing

variable {into more : Into} {among : Landing → Prop}

theorem Place.fits_of_passed {s : Slot} {passed : s.Object → List Landing} {v : s.Val}
    {wire : s.Wire}
    (known : ∀ c v part, into c v → among ⟨c, part⟩ → more c v)
    (each : ∀ object, s.Fits into object v → (∀ landing ∈ passed object, among landing) →
      s.Fits more object v) :
    ∀ place : Place s.Object, place.Meets s into (s.Fits into) v →
      (∀ landing ∈ place.passed s passed wire, among landing) → place.Meets s more (s.Fits more) v
  | .own object, fit, all => each object fit all
  | .shared address, here, all =>
      known (s, address) v wire here (all ⟨(s, address), wire⟩ (List.mem_singleton_self _))

mutual

theorem Ty.fits_of_passed (known : ∀ c v part, into c v → among ⟨c, part⟩ → more c v) :
    (t : Ty) → (object : t.Object) → (v : t.Val) → (wire : t.Wire) → t.Shows v wire →
      t.Fits into object v → (∀ landing ∈ t.passed object wire, among landing) →
      t.Fits more object v
  | .scalar _, _, _, _, _, _, _ => trivial
  | .array _ element, _, _, _, shown, fit, all =>
      Container.fits_of_passed (fun place v frame shows => Place.fits_of_passed known
        (fun object => element.fits_of_passed known object v frame shows) place) shown fit all
  | .composite _ fields, object, v, wire, shown, fit, all =>
      fields.fits_of_passed known object v wire.2 shown fit all

/-- Where a value fits, only the shared objects matter that something is passed
on to. -/
theorem Slot.fits_of_passed (known : ∀ c v part, into c v → among ⟨c, part⟩ → more c v) :
    (s : Slot) → (object : s.Object) → (v : s.Val) → (wire : s.Wire) → s.Shows v wire →
      s.Fits into object v → (∀ landing ∈ s.passed object wire, among landing) →
      s.Fits more object v
  | .plain _, _, _, none, shown, _, _ => shown.elim
  | .plain type, object, v, some wire, shown, fit, all =>
      type.fits_of_passed known object v wire shown fit all
  | .nullable type, _, _, wire, shown, fit, all => by
      rintro present rfl
      cases shown with
      | some here =>
          exact Place.fits_of_passed (s := .plain type) known
            (fun object => type.fits_of_passed known object _ _ here) _ (fit _ rfl) all
  | .null, _, _, _, _, _, _ => trivial

theorem Fields.fits_of_passed (known : ∀ c v part, into c v → among ⟨c, part⟩ → more c v) :
    (fields : Fields) → (object : fields.Object) → (v : fields.Val) → (wire : fields.Wire) →
      fields.Shows v wire → fields.Fits into object v →
      (∀ landing ∈ fields.passed object wire, among landing) → fields.Fits more object v
  | .nil, _, _, _, _, _, _ => trivial
  | .cons head tail, object, v, wire, shown, fit, all => by
      rcases List.forall_mem_append.mp all with ⟨inHead, inTail⟩
      exact ⟨Place.fits_of_passed known
          (fun object => head.fits_of_passed known object v.1 wire.1.2 shown.1) object.1 fit.1
          inHead,
        tail.fits_of_passed known object.2 v.2 wire.2 shown.2 fit.2 inTail⟩

end

/-- A frame is shown by a value that its object is to take. -/
def ShownIn (into : Into) (landing : Landing) : Prop :=
  ∃ v, into landing.1 v ∧ landing.1.1.Shows v landing.2

theorem Place.shows_passed {s : Slot} {passed : s.Object → List Landing} {v : s.Val}
    {wire : s.Wire} (shown : s.Shows v wire)
    (each : ∀ object, s.Fits into object v → ∀ landing ∈ passed object, ShownIn into landing) :
    ∀ place : Place s.Object, place.Meets s into (s.Fits into) v →
      ∀ landing ∈ place.passed s passed wire, ShownIn into landing
  | .own object, fit => each object fit
  | .shared _, here => fun _ member => List.mem_singleton.mp member ▸ ⟨v, here, shown⟩

mutual

theorem Ty.shows_passed : (t : Ty) → (object : t.Object) → (v : t.Val) → (wire : t.Wire) →
    t.Shows v wire → t.Fits into object v → ∀ landing ∈ t.passed object wire, ShownIn into landing
  | .scalar _, _, _, _, _, _ => nofun
  | .array _ element, _, _, _, shown, fit =>
      Container.forall_passed (fun place v frame shows => Place.shows_passed shows
        (fun object => element.shows_passed object v frame shows) place) shown fit
  | .composite _ fields, object, v, wire, shown, fit =>
      fields.shows_passed object v wire.2 shown fit

/-- What is passed on is shown by the values that the shared objects take. -/
theorem Slot.shows_passed : (s : Slot) → (object : s.Object) → (v : s.Val) → (wire : s.Wire) →
    s.Shows v wire → s.Fits into object v → ∀ landing ∈ s.passed object wire, ShownIn into landing
  | .plain _, _, _, none, shown, _ => shown.elim
  | .plain type, object, v, some wire, shown, fit => type.shows_passed object v wire shown fit
  | .nullable type, _, _, wire, shown, fit => by
      cases shown with
      | none => exact nofun
      | @some v present here =>
          have shows : (Slot.plain type).Shows v (some present) := here
          exact Place.shows_passed shows (fun object => type.shows_passed object _ _ here) _
            (fit _ rfl)
  | .null, _, _, _, _, _ => nofun

theorem Fields.shows_passed : (fields : Fields) → (object : fields.Object) → (v : fields.Val) →
    (wire : fields.Wire) → fields.Shows v wire → fields.Fits into object v →
      ∀ landing ∈ fields.passed object wire, ShownIn into landing
  | .nil, _, _, _, _, _ => nofun
  | .cons head tail, object, v, wire, shown, fit =>
      List.forall_mem_append.mpr
        ⟨Place.shows_passed shown.1
            (fun object => head.shows_passed object v.1 wire.1.2 shown.1) object.1 fit.1,
          tail.shows_passed object.2 v.2 wire.2 shown.2 fit.2⟩

end

end Passing

/-! ## What an object holds in a heap -/

section Values

variable (heap : Heap)

/-- The values of the shared objects. -/
def Heap.values : Into :=
  fun c v => c.1.value heap (heap c) = v

theorem Place.value_eq_iff {s : Slot}
    (each : ∀ object v, s.value heap object = v ↔ s.Has heap.values object v) :
    ∀ (place : Place s.Object) (v : s.Val),
      place.value (s.value heap) (fun address => s.value heap (heap (s, address))) = v ↔
        place.Meets s heap.values (s.Has heap.values) v
  | .own object, v => each object v
  | .shared _, _ => Iff.rfl

mutual

theorem Ty.value_eq_iff : (t : Ty) → (object : t.Object) → (v : t.Val) →
    (t.value heap object = v ↔ t.Has heap.values object v)
  | .scalar _, _, _ => Iff.rfl
  | .array _ element, _, _ =>
      Container.ext_iff.trans (map_eq_iff_forall₂ (Place.value_eq_iff heap element.value_eq_iff))
  | .composite _ fields, object, v => fields.value_eq_iff object v

theorem Slot.value_eq_iff : (s : Slot) → (object : s.Object) → (v : s.Val) →
    (s.value heap object = v ↔ s.Has heap.values object v)
  | .plain type, object, v => type.value_eq_iff object v
  | .nullable type, _, _ =>
      map_eq_iff_rel (Place.value_eq_iff (s := .plain type) heap type.value_eq_iff)
  | .null, _, _ => iff_of_true rfl trivial

theorem Fields.value_eq_iff : (fields : Fields) → (object : fields.Object) → (v : fields.Val) →
    (fields.value heap object = v ↔ fields.Has heap.values object v)
  | .nil, _, _ => iff_of_true rfl trivial
  | .cons head tail, object, v =>
      Prod.ext_iff.trans (and_congr (Place.value_eq_iff heap head.value_eq_iff object.1 v.1)
        (tail.value_eq_iff object.2 v.2))

end

end Values

/-- Storing into the objects of the heap obeys the rules of landings. -/
theorem storing_lawful : storing.Lawful Slot.rank Slot.Shows Slot.Fits Slot.Has where
  descends := storing_descends
  fits_mono each fit := Slot.Fits.mono each _ _ _ fit
  holds_mono each held := Slot.Has.mono each _ _ _ held
  fits_of_holds held := Slot.fits_of_holds _ _ _ held
  holds_store shown fit := Slot.holds_stored _ _ _ _ shown fit
  fits_of_store shown fit := Slot.fits_of_stored _ _ _ _ shown fit
  fits_passed shown fit :=
    Slot.fits_of_passed (fun _ _ part here member => ⟨here, part, member⟩) _ _ _ _ shown fit
      fun _ => id
  shows_passed shown fit := Slot.shows_passed _ _ _ _ shown fit

/-! ## Receiving over old contents -/

section Contents

variable {s : Slot}

/-- The value on the wire can replace all that an output holds: no container with
old elements meets an array without any, and every shared object can be given one
value, which all frames that are received into it show. -/
def Contents.Takes (out : Contents s) (wire : s.Wire) : Prop :=
  ∃ v, s.Shows v wire ∧ Memory.Storing.Takes Slot.Fits out.heap s out.object v

theorem Contents.recv_eq_ok_iff {map : OidMap} {oid : Option Oid} {size : Int}
    {out result : Contents s} {bytes rest : List UInt8} :
    out.recv map oid size bytes = .ok (result, rest) ↔
      ∃ wire, s.readWire size bytes = .ok (wire, rest) ∧ s.Accepts map oid wire ∧
        (result.object, result.heap) = s.storeInto (out.object, out.heap) wire := by
  rw [← s.recvInto_factors map oid size (out.object, out.heap), Contents.recv, bind_eq_ok_iff]
  constructor
  · rintro ⟨_, _, received, made⟩
    rcases pure_eq_ok_iff.mp made with ⟨rfl, rfl⟩
    exact received
  · intro received
    exact ⟨_, rest, received, rfl⟩

/-- What was stored is what the wire holds exactly if the output could take it. -/
theorem Contents.shows_iff {out result : Contents s} {wire : s.Wire}
    (stored : (result.object, result.heap) = s.storeInto (out.object, out.heap) wire) :
    s.Shows result.value wire ↔ out.Takes wire := by
  rcases s.settles out.object out.heap wire with ⟨same, landings, lands⟩
  rw [← stored] at same lands
  rw [Contents.value, show result.object = s.stored out.object wire from same]
  exact lands.shows_iff storing_lawful Slot.value_eq_iff

/-- Receiving does not let the old contents of two outputs show: two runs that
succeed give the same value, and each holds exactly what is on the wire. -/
structure ReplacesContents (map : OidMap) (oid : Option Oid) (size : Int) (bytes : List UInt8)
    (out out' : Contents s) : Prop where
  same_value : ∀ result result' rest rest', out.recv map oid size bytes = .ok (result, rest) →
    out'.recv map oid size bytes = .ok (result', rest') → result.value = result'.value
  shows_wire : ∀ result rest, out.recv map oid size bytes = .ok (result, rest) →
    ∃ wire, s.readWire size bytes = .ok (wire, rest) ∧ s.Shows result.value wire
  shows_wire' : ∀ result rest, out'.recv map oid size bytes = .ok (result, rest) →
    ∃ wire, s.readWire size bytes = .ok (wire, rest) ∧ s.Shows result.value wire

theorem Contents.shows_wire_iff (map : OidMap) (oid : Option Oid) (size : Int)
    (bytes : List UInt8) (out : Contents s) :
    (∀ result rest, out.recv map oid size bytes = .ok (result, rest) →
      ∃ wire, s.readWire size bytes = .ok (wire, rest) ∧ s.Shows result.value wire) ↔
    ∀ wire rest, s.readWire size bytes = .ok (wire, rest) → s.Accepts map oid wire →
      out.Takes wire := by
  constructor
  · intro shows wire rest read accepted
    let result : Contents s :=
      ⟨(s.storeInto (out.object, out.heap) wire).1, (s.storeInto (out.object, out.heap) wire).2⟩
    have stored : (result.object, result.heap) = s.storeInto (out.object, out.heap) wire := rfl
    rcases shows result rest (recv_eq_ok_iff.mpr ⟨wire, read, accepted, stored⟩) with
      ⟨wire', again, shown⟩
    rw [read] at again
    cases again
    exact (shows_iff stored).mp shown
  · intro takes result rest received
    rcases recv_eq_ok_iff.mp received with ⟨wire, read, accepted, stored⟩
    exact ⟨wire, read, (shows_iff stored).mpr (takes wire rest read accepted)⟩

end Contents

/-- For every type, every input and any two outputs, `recv` replaces the old
contents of both exactly when both can take what the wire holds. -/
theorem recv_replaces_contents_iff (map : OidMap) (oid : Option Oid) (s : Slot) (size : Int)
    (bytes : List UInt8) (out out' : Contents s) :
    ReplacesContents map oid size bytes out out' ↔
      ∀ wire rest, s.readWire size bytes = .ok (wire, rest) → s.Accepts map oid wire →
        out.Takes wire ∧ out'.Takes wire := by
  have first := out.shows_wire_iff map oid size bytes
  have second := out'.shows_wire_iff map oid size bytes
  constructor
  · intro replaces wire rest read accepted
    exact ⟨first.mp replaces.shows_wire wire rest read accepted,
      second.mp replaces.shows_wire' wire rest read accepted⟩
  · intro takes
    have shows := first.mpr fun wire rest read accepted => (takes wire rest read accepted).1
    have shows' := second.mpr fun wire rest read accepted => (takes wire rest read accepted).2
    refine ⟨?_, shows, shows'⟩
    intro result result' rest rest' received received'
    rcases shows result rest received with ⟨wire, read, shown⟩
    rcases shows' result' rest' received' with ⟨wire', again, shown'⟩
    rw [read] at again
    cases again
    exact s.shows_unique _ _ wire shown shown'

/-- An array of text, as a resizable container. -/
def textArray : Slot :=
  .plain (.array none (.plain (.scalar .text)))

/-- An array without dimensions whose elements are text. -/
def noDimensions : List UInt8 :=
  [0, 0, 0, 0, 0, 0, 0, 0, 0, 0, 0, 25]

/-- A container of given elements, none of them shared. -/
def textsOnly (texts : List (List UInt8)) : Contents textArray :=
  ⟨textArray.sole ⟨texts, nofun⟩, .default⟩

/-- A container that held a string still holds it after an empty array was
received, while an empty container stays empty. -/
theorem recv_keeps_old_elements :
    (textsOnly [[97]]).recv (fun _ => 0) (some 1009) 12 noDimensions = .ok (textsOnly [[97]], []) ∧
      (textsOnly []).recv (fun _ => 0) (some 1009) 12 noDimensions = .ok (textsOnly [], []) ∧
      ¬ ReplacesContents (fun _ => 0) (some 1009) 12 noDimensions (textsOnly [[97]])
        (textsOnly []) := by
  have kept : (textsOnly [[97]]).recv (fun _ => 0) (some 1009) 12 noDimensions =
      .ok (textsOnly [[97]], []) := rfl
  have empty : (textsOnly []).recv (fun _ => 0) (some 1009) 12 noDimensions =
      .ok (textsOnly [], []) := rfl
  refine ⟨kept, empty, ?_⟩
  intro replaces
  have same := replaces.same_value _ _ _ _ kept empty
  cases same

/-- A `std::vector` of `std::shared_ptr` of integers. -/
def sharedIntegers : Slot :=
  .plain (.array none (.nullable (.scalar .int4)))

/-- The array of the integers 1 and 2. -/
def oneAndTwo : List UInt8 :=
  [0, 0, 0, 1, 0, 0, 0, 0, 0, 0, 0, 23, 0, 0, 0, 2, 0, 0, 0, 0,
    0, 0, 0, 4, 0, 0, 0, 1, 0, 0, 0, 4, 0, 0, 0, 2]

/-- A container of two elements that share their object. -/
def sharedTwice : Contents sharedIntegers :=
  ⟨⟨[.own (some (.shared 0)), .own (some (.shared 0))], nofun⟩, .default⟩

/-- The two elements end with the value of the second. -/
example :
    (sharedTwice.recv (fun _ => 0) (some 1007) 36 oneAndTwo).map
        (fun received => received.1.value) =
      .ok ⟨[some (2 : Word 4), some (2 : Word 4)], nofun⟩ :=
  rfl

end Bozo.Io
