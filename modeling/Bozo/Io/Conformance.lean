import Bozo.Io.Wire

/-!
# Types on the wire against the output type

What a receive function meets on the wire, at every depth, is what the type of
its output demands there: the oids, the numbers of members and dimensions, and
the places where a null may stand.
-/

namespace Bozo.Io

open Bozo.Bytes
open Bozo.Bytes.Reader

/-! ## Output types -/

mutual

/-- The members of every structure in a type can be counted by a `size_type`. -/
def Ty.Counted : Ty → Prop
  | .scalar _ => True
  | .array _ element => element.Counted
  | .composite _ fields => fields.number < 2 ^ 31 ∧ fields.Counted

def Slot.Counted : Slot → Prop
  | .plain type | .nullable type => type.Counted
  | .null => True

def Fields.Counted : Fields → Prop
  | .nil => True
  | .cons head tail => head.Counted ∧ tail.Counted

end

/-- An output type as it can be declared: the number of members of a structure
is a constant that its adaptation gives as an `int`. -/
structure OutputType where
  slot : Slot
  counted : slot.Counted

/-! ## What is met on the wire -/

/-- A fact of the wire with the part of the output type at its position. -/
inductive Met
  /-- The oid of a value that is not null. -/
  | oid (found : Oid) (type : Ty)
  /-- The oid of the elements of an array. -/
  | elemtype (found : Oid) (element : Slot)
  | dimensions (count : Int)
  | fieldCount (count : Int) (fields : Fields)
  | null (output : Slot)

/-- The output type demands this. -/
def Met.Conforms (map : OidMap) : Met → Prop
  | .oid found type => found = type.typeOid map
  | .elemtype found element => found = element.typeOid map
  | .dimensions count => count ≤ 1
  | .fieldCount count fields => count = fields.number
  | .null output => ∃ type, output = .nullable type

/-- The oid of a frame, where there is one, and what is met behind it. -/
def metValue (type : Ty) (oid : Option Oid) (inside : List Met) : List Met :=
  oid.toList.map (fun found => .oid found type) ++ inside

mutual

/-- All that is met in an object. -/
def Ty.met : (t : Ty) → t.Wire → List Met
  | .scalar _, _ => []
  | .array _ element, wire =>
      .dimensions wire.dimensions :: .elemtype wire.elemtype element ::
        wire.items.flatMap (element.met none)
  | .composite _ fields, wire => .fieldCount wire.1 fields :: fields.met wire.2

/-- All that is met in an object that may be null on the wire, with the oid that
came with its frame. -/
def Slot.met (oid : Option Oid) : (s : Slot) → s.Wire → List Met
  | .plain type, wire =>
      Option.elim wire [.null (.plain type)] fun present => metValue type oid (type.met present)
  | .nullable type, wire =>
      Option.elim wire [.null (.nullable type)] fun present => metValue type oid (type.met present)
  | .null, _ => [.null .null]

def Fields.met : (fields : Fields) → fields.Wire → List Met
  | .nil, _ => []
  | .cons head tail, wire => head.met (some wire.1.1) wire.1.2 ++ tail.met wire.2

end

/-! ## What was accepted conforms -/

theorem metValue_conforms {map : OidMap} {type : Ty} {oid : Option Oid} {inside : List Met}
    (sameOid : ∀ found, oid = some found → type.typeOid map = found)
    (conforms : ∀ met ∈ inside, met.Conforms map) :
    ∀ met ∈ metValue type oid inside, met.Conforms map := by
  intro met member
  rcases List.mem_append.mp member with here | there
  · rcases List.mem_map.mp here with ⟨found, present, rfl⟩
    exact (sameOid found (Option.mem_toList.mp present)).symm
  · exact conforms met there

mutual

theorem Ty.met_conforms (map : OidMap) : (t : Ty) → t.Counted → (wire : t.Wire) →
    t.Accepts map wire → ∀ met ∈ t.met wire, met.Conforms map
  | .scalar _, _, _, _ => nofun
  | .array _ element, counted, wire, accepted => by
      rcases accepted with ⟨atMostOne, sameOid, -, items⟩
      have inside : ∀ met ∈ wire.items.flatMap (element.met none), met.Conforms map := by
        intro met member
        rcases List.mem_flatMap.mp member with ⟨item, itemMember, inItem⟩
        exact element.met_conforms map none counted item (items item itemMember) met inItem
      exact List.forall_mem_cons.mpr
        ⟨atMostOne, List.forall_mem_cons.mpr ⟨sameOid.symm, inside⟩⟩
  | .composite _ fields, counted, wire, accepted => by
      have number : wire.1 = fields.number := by
        rw [accepted.1, Fields.fieldsNumber, int32_natCast counted.1]
      exact List.forall_mem_cons.mpr
        ⟨number, fields.met_conforms map counted.2 wire.2 accepted.2⟩

theorem Slot.met_conforms (map : OidMap) (oid : Option Oid) : (s : Slot) → s.Counted →
    (wire : s.Wire) → s.Accepts map oid wire → ∀ met ∈ s.met oid wire, met.Conforms map
  | .plain _, _, none, accepted => accepted.elim
  | .plain type, counted, some wire, accepted =>
      metValue_conforms accepted.1 (type.met_conforms map counted wire accepted.2)
  | .nullable type, _, none, _ => List.forall_mem_singleton.mpr ⟨type, rfl⟩
  | .nullable type, counted, some wire, accepted =>
      metValue_conforms accepted.1 (type.met_conforms map counted wire accepted.2)
  | .null, _, _, accepted => accepted.elim

theorem Fields.met_conforms (map : OidMap) : (fields : Fields) → fields.Counted →
    (wire : fields.Wire) → fields.Accepts map wire → ∀ met ∈ fields.met wire, met.Conforms map
  | .nil, _, _, _ => nofun
  | .cons head tail, counted, wire, accepted => by
      intro met member
      rcases List.mem_append.mp member with here | there
      · exact head.met_conforms map (some wire.1.1) counted.1 wire.1.2 accepted.1 met here
      · exact tail.met_conforms map counted.2 wire.2 accepted.2 met there

end

/-- A frame that `recv_frame` receives successfully holds, at every depth, what
the output type demands, and that is what is stored. -/
theorem recvFrame_conforms (map : OidMap) (output : OutputType) (out result : output.slot.Val)
    (bytes rest : List UInt8)
    (received : output.slot.recvFrame map out bytes = .ok (result, rest)) :
    ∃ oid wire, output.slot.readWireFrame bytes = .ok ((oid, wire), rest) ∧
      result = output.slot.store out wire ∧
      ∀ met ∈ output.slot.met (some oid) wire, met.Conforms map := by
  rcases bind_eq_ok_iff.mp received with ⟨oid, payload, oidRead, framed⟩
  have frame := Factors.recvSized (output.slot.recv_factors map (some oid))
  rcases (frame out payload result rest).mp framed with ⟨wire, wireRead, accepted, stored⟩
  refine ⟨oid, wire, ?_, stored, ?_⟩
  · exact bind_eq_ok_iff.mpr ⟨oid, payload, oidRead,
      bind_eq_ok_iff.mpr ⟨wire, rest, wireRead, rfl⟩⟩
  · exact output.slot.met_conforms map (some oid) output.counted wire accepted

/-- A record of an optional integer and an array of short integers. -/
def integerAndShorts : OutputType where
  slot := .plain (.composite .record
    (.cons (.nullable (.scalar .int4)) (.cons (.plain (.array none (.plain (.scalar .int2)))) .nil)))
  counted := ⟨by decide, trivial, trivial, trivial⟩

/-- The frame of such a record: a null and the array of the number seven. -/
def nullAndSeven : List UInt8 :=
  [0, 0, 8, 201, 0, 0, 0, 46, 0, 0, 0, 2] ++
    [0, 0, 0, 23, 255, 255, 255, 255] ++
    [0, 0, 3, 237, 0, 0, 0, 26] ++
    [0, 0, 0, 1, 0, 0, 0, 0, 0, 0, 0, 21, 0, 0, 0, 1, 0, 0, 0, 1, 0, 0, 0, 2, 0, 7]

theorem recvFrame_conforms_nullAndSeven :
    ∃ oid wire, integerAndShorts.slot.readWireFrame nullAndSeven = .ok ((oid, wire), []) ∧
      (none, ⟨[(7 : Word 2)], nofun⟩, ()) =
        integerAndShorts.slot.store integerAndShorts.slot.default wire ∧
      ∀ met ∈ integerAndShorts.slot.met (some oid) wire, met.Conforms fun _ => 0 :=
  recvFrame_conforms (fun _ => 0) integerAndShorts integerAndShorts.slot.default
    (none, ⟨[(7 : Word 2)], nofun⟩, ()) nullAndSeven [] rfl

end Bozo.Io
