import HeapSentry.Heap.Document
import HeapSentry.Json.Decode
import HeapSentry.Json.Printer

/-!
# The JSON form of heap documents

`Document.toJson` and the value writers say how a document is written, `Document.decoder` reads it.
The reader takes more than is written: other members, lists in place of records, and records without
the members that have a default.
-/

namespace HeapSentry.Heap

open Json

/-! ## Writing -/

def idJson (id : ObjectId) : Value := .nat id.toNat

def FieldValue.toJson (v : FieldValue) : Value :=
  .obj [(v.typeName, match v with
    | .boolean b => .bool b
    | .char c => .nat c.toNat
    | .byte i => .int i.toInt
    | .short i => .int i.toInt
    | .int i => .int i.toInt
    | .long i => .int i.toInt
    | .float x => .float x.toFloat
    | .double x => .float x
    | .object target => .ofOption idJson target)]

def PrimitiveType.toJson (t : PrimitiveType) : Value := .str t.name

def RootKind.label : RootKind → String
  | .jniGlobal => "jni_global"
  | .jniLocal => "jni_local"
  | .javaFrame => "java_frame"
  | .nativeStack => "native_stack"
  | .stickyClass => "sticky_class"
  | .threadBlock => "thread_block"
  | .monitorUsed => "monitor_used"
  | .threadObject => "thread_object"
  | .unknown => "unknown"

def FieldRecord.toJson (r : FieldRecord) : Value :=
  .obj [("declaring_class", .ofOption idJson r.declaringClass), ("name", .str r.name),
    ("value", r.value.toJson)]

def ClassRecord.toJson (r : ClassRecord) : Value :=
  .obj [("id", idJson r.id), ("name", .str r.name),
    ("superclass", .ofOption idJson r.superclass),
    ("static_fields", .list FieldRecord.toJson r.staticFields)]

def InstanceRecord.toJson (r : InstanceRecord) : Value :=
  .obj [("id", idJson r.id), ("class", idJson r.classId),
    ("fields", .list FieldRecord.toJson r.fields)]

def PrimitiveArray.toJson (a : PrimitiveArray) : Value :=
  .obj [("id", idJson a.id), ("element_type", a.elementType.toJson),
    ("length", .nat a.length.toNat)]

def ObjectArray.toJson (a : ObjectArray) : Value :=
  .obj [("id", idJson a.id), ("class", idJson a.classId),
    ("elements", .list (.ofOption idJson) a.elements)]

def Root.toJson (r : Root) : Value :=
  .obj [("id", idJson r.id), ("kind", .str r.kind.label)]

def Document.toJson (d : Document) : Value :=
  .obj [("classes", .list ClassRecord.toJson d.classes),
    ("instances", .list InstanceRecord.toJson d.instances),
    ("primitive_arrays", .list PrimitiveArray.toJson d.primitiveArrays),
    ("object_arrays", .list ObjectArray.toJson d.objectArrays),
    ("gc_roots", .list Root.toJson d.roots)]

/-! ## Reading -/

open Decode

def FieldValue.decoder : Decoder FieldValue :=
  tagged [
    ("boolean", fun r ↦ (Decode.boolean r).map .boolean),
    ("char", fun r ↦ (uint16 r).map .char),
    ("byte", fun r ↦ (int8 r).map .byte),
    ("short", fun r ↦ (int16 r).map .short),
    ("int", fun r ↦ (int32 r).map .int),
    ("long", fun r ↦ (int64 r).map .long),
    ("float", fun r ↦ (float32 r).map .float),
    ("double", fun r ↦ (Decode.float r).map .double),
    ("object", fun r ↦ (optional uint64 r).map .object)]

def PrimitiveType.all : List PrimitiveType :=
  [.boolean, .char, .float, .double, .byte, .short, .int, .long]

def PrimitiveType.decoder : Decoder PrimitiveType :=
  named (PrimitiveType.all.map fun t ↦ (t.name, t))

def RootKind.all : List RootKind :=
  [.jniGlobal, .jniLocal, .javaFrame, .nativeStack, .stickyClass, .threadBlock, .monitorUsed,
    .threadObject, .unknown]

def RootKind.decoder : Decoder RootKind := named (RootKind.all.map fun k ↦ (k.label, k))

def FieldRecord.decoder : Decoder FieldRecord :=
  record "FieldRecord"
    [defaulting "declaring_class" (optional uint64) none, required "name" string,
      required "value" FieldValue.decoder]
    fun (declaringClass, name, value, ()) ↦ ⟨declaringClass, name, value⟩

def ClassRecord.decoder : Decoder ClassRecord :=
  record "ClassRecord"
    [required "id" uint64, required "name" string,
      defaulting "superclass" (optional uint64) none,
      defaulting "static_fields" (list FieldRecord.decoder) []]
    fun (id, name, superclass, staticFields, ()) ↦ ⟨id, name, superclass, staticFields⟩

def InstanceRecord.decoder : Decoder InstanceRecord :=
  record "InstanceRecord"
    [required "id" uint64, required "class" uint64,
      defaulting "fields" (list FieldRecord.decoder) []]
    fun (id, classId, fields, ()) ↦ ⟨id, classId, fields⟩

def PrimitiveArray.decoder : Decoder PrimitiveArray :=
  record "PrimitiveArrayRecord"
    [required "id" uint64, required "element_type" PrimitiveType.decoder,
      required "length" uint64]
    fun (id, elementType, length, ()) ↦ ⟨id, elementType, length⟩

def ObjectArray.decoder : Decoder ObjectArray :=
  record "ObjectArrayRecord"
    [required "id" uint64, required "class" uint64,
      defaulting "elements" (list (optional uint64)) []]
    fun (id, classId, elements, ()) ↦ ⟨id, classId, elements⟩

def Root.decoder : Decoder Root :=
  record "RootRecord" [required "id" uint64, required "kind" RootKind.decoder]
    fun (id, kind, ()) ↦ ⟨id, kind⟩

def Document.decoder : Decoder Document :=
  record "HeapDocument"
    [defaulting "classes" (list ClassRecord.decoder) [],
      defaulting "instances" (list InstanceRecord.decoder) [],
      defaulting "primitive_arrays" (list PrimitiveArray.decoder) [],
      defaulting "object_arrays" (list ObjectArray.decoder) [],
      defaulting "gc_roots" (list Root.decoder) []]
    fun (classes, instances, primitiveArrays, objectArrays, roots, ()) ↦
      ⟨classes, instances, primitiveArrays, objectArrays, roots⟩

namespace Document

/-- Reads a document; `origin` says in faults where the text is from. -/
def ofText (origin text : String) : Except Fault Document :=
  match decode decoder text with
  | .ok d => .ok d
  | .error e => .error (.malformed origin e.message)

def graphOfText (origin text : String) : Except Fault Graph := do
  let d ← ofText origin text
  d.toGraph

end Document

end HeapSentry.Heap
