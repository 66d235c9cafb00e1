import HeapSentry.Heap.DocumentFormat
import HeapSentry.Proofs.Json.Decoding

/-!
# Reading back heap documents

A document without floating-point values is read as it was written, whatever its names and numbers
are and whatever stands between the tokens of its text.
-/

namespace HeapSentry.Heap

open Json Decode

/-! ## Values -/

def FieldValue.isFloatingPoint : FieldValue → Bool
  | .float _ | .double _ => true
  | _ => false

theorem reads_id (id : ObjectId) : Reads uint64 (idJson id) id ∧ (idJson id).reading ≠ .null :=
  ⟨reads_uint64 id, nofun⟩

theorem reads_idOrNull (id : Option ObjectId) :
    Reads (optional uint64) (.ofOption idJson id) id :=
  reads_ofOption id reads_id

-- Each type has a tag of its own, under which the table of readers has the reader of that type.
theorem reads_fieldValue {v : FieldValue} (h : v.isFloatingPoint = false) :
    Reads FieldValue.decoder v.toJson v := by
  cases v with
  | boolean b => exact reads_tagged rfl ((reads_boolean b).map FieldValue.boolean)
  | char c => exact reads_tagged rfl ((reads_uint16 c).map FieldValue.char)
  | byte i => exact reads_tagged rfl ((reads_int8 i).map FieldValue.byte)
  | short i => exact reads_tagged rfl ((reads_int16 i).map FieldValue.short)
  | int i => exact reads_tagged rfl ((reads_int32 i).map FieldValue.int)
  | long i => exact reads_tagged rfl ((reads_int64 i).map FieldValue.long)
  | float x => cases h
  | double x => cases h
  | object target => exact reads_tagged rfl ((reads_idOrNull target).map FieldValue.object)

theorem reads_primitiveType (t : PrimitiveType) : Reads PrimitiveType.decoder t.toJson t := by
  apply reads_named
  cases t <;> rfl

theorem reads_rootKind (k : RootKind) : Reads RootKind.decoder (.str k.label) k := by
  apply reads_named
  cases k <;> rfl

/-! ## Records -/

theorem reads_fieldRecord {r : FieldRecord} (h : r.value.isFloatingPoint = false) :
    Reads FieldRecord.decoder r.toJson r :=
  reads_record
    (.present (reads_idOrNull r.declaringClass) <| .required (reads_string r.name) <|
      .required (reads_fieldValue h) .nil)
    (by decide) rfl

theorem reads_fields {fs : List FieldRecord} (h : ∀ f ∈ fs, f.value.isFloatingPoint = false) :
    Reads (list FieldRecord.decoder) (.list FieldRecord.toJson fs) fs :=
  reads_list fun f hf ↦ reads_fieldRecord (h f hf)

theorem reads_class {r : ClassRecord} (h : ∀ f ∈ r.staticFields, f.value.isFloatingPoint = false) :
    Reads ClassRecord.decoder r.toJson r :=
  reads_record
    (.required (reads_id r.id).1 <| .required (reads_string r.name) <|
      .present (reads_idOrNull r.superclass) <| .present (reads_fields h) .nil)
    (by decide) rfl

theorem reads_instance {r : InstanceRecord} (h : ∀ f ∈ r.fields, f.value.isFloatingPoint = false) :
    Reads InstanceRecord.decoder r.toJson r :=
  reads_record
    (.required (reads_id r.id).1 <| .required (reads_id r.classId).1 <|
      .present (reads_fields h) .nil)
    (by decide) rfl

theorem reads_primitiveArray (a : PrimitiveArray) : Reads PrimitiveArray.decoder a.toJson a :=
  reads_record
    (.required (reads_id a.id).1 <| .required (reads_primitiveType a.elementType) <|
      .required (reads_uint64 a.length) .nil)
    (by decide) rfl

theorem reads_objectArray (a : ObjectArray) : Reads ObjectArray.decoder a.toJson a := by
  have helements : Reads (list (optional uint64)) (.list (.ofOption idJson) a.elements)
      a.elements := reads_list fun e _ ↦ reads_idOrNull e
  exact reads_record
    (.required (reads_id a.id).1 <| .required (reads_id a.classId).1 <| .present helements .nil)
    (by decide) rfl

theorem reads_root (r : Root) : Reads Root.decoder r.toJson r :=
  reads_record (.required (reads_id r.id).1 <| .required (reads_rootKind r.kind) .nil)
    (by decide) rfl

/-! ## Documents -/

namespace Document

structure HasNoFloats (d : Document) : Prop where
  staticFields : ∀ c ∈ d.classes, ∀ f ∈ c.staticFields, f.value.isFloatingPoint = false
  fields : ∀ i ∈ d.instances, ∀ f ∈ i.fields, f.value.isFloatingPoint = false

theorem reads_document {d : Document} (h : d.HasNoFloats) : Reads decoder d.toJson d := by
  have hclasses : Reads (list ClassRecord.decoder) (.list ClassRecord.toJson d.classes)
      d.classes := reads_list fun c hc ↦ reads_class (h.staticFields c hc)
  have hinstances : Reads (list InstanceRecord.decoder) (.list InstanceRecord.toJson d.instances)
      d.instances := reads_list fun i hi ↦ reads_instance (h.fields i hi)
  have hprimitiveArrays : Reads (list PrimitiveArray.decoder)
      (.list PrimitiveArray.toJson d.primitiveArrays) d.primitiveArrays :=
    reads_list fun a _ ↦ reads_primitiveArray a
  have hobjectArrays : Reads (list ObjectArray.decoder)
      (.list ObjectArray.toJson d.objectArrays) d.objectArrays :=
    reads_list fun a _ ↦ reads_objectArray a
  have hroots : Reads (list Root.decoder) (.list Root.toJson d.roots) d.roots :=
    reads_list fun r _ ↦ reads_root r
  exact reads_record
    (.present hclasses <| .present hinstances <| .present hprimitiveArrays <|
      .present hobjectArrays <| .present hroots .nil)
    (by decide) rfl

/-- The text of a document without floating-point values is read as that document. -/
theorem ofText_written {d : Document} (h : d.HasNoFloats) {l : Layout} (hl : l.Spaced)
    (origin : String) : ofText origin (String.ofList (d.toJson.chars l 0)) = .ok d := by
  rw [ofText, decode_chars hl (reads_document h)]

/-- Extreme numbers, names that need escapes, and everything that may be null. -/
def extremes : Document where
  classes := [⟨0xffffffffffffffff, "\"\\u0041\x00𝄞", none,
      [⟨none, "", .object none⟩, ⟨some 0, "null", .object (some 0xffffffffffffffff)⟩]⟩]
  instances := [⟨0, 7, [⟨none, "\n", .byte (-128)⟩, ⟨none, "", .short (-32768)⟩,
      ⟨none, "", .int (-2147483648)⟩, ⟨none, "", .long (-9223372036854775808)⟩,
      ⟨none, "", .long 9223372036854775807⟩, ⟨none, "", .char 65535⟩,
      ⟨some 1, "", .boolean false⟩]⟩, ⟨1, 7, []⟩]
  primitiveArrays := [⟨2, .double, 0xffffffffffffffff⟩]
  objectArrays := [⟨3, 4, [none, some 0, none]⟩, ⟨3, 4, []⟩]
  roots := [⟨5, .monitorUsed⟩]

theorem ofText_written_extremes : extremes.HasNoFloats ∧ Layout.compact.Spaced ∧
    ofText "inline" extremes.toJson.compact = .ok extremes := by
  have hvalues : extremes.HasNoFloats := ⟨by simp [extremes, FieldValue.isFloatingPoint],
    by simp [extremes, FieldValue.isFloatingPoint]⟩
  exact ⟨hvalues, Layout.spaced_compact, ofText_written hvalues Layout.spaced_compact "inline"⟩

end Document

end HeapSentry.Heap
