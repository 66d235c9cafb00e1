import HeapSentry.Text.Hex

/-!
# Objects of a heap

A heap holds classes, instances and arrays.  They name each other by id; nothing here says that a
named object exists.
-/

namespace HeapSentry.Heap

abbrev ObjectId := UInt64

/-- The low half of an id; the high half is a tag of the dump. -/
def ObjectId.untagged (id : ObjectId) : UInt64 := id &&& 0xffffffff

inductive FieldValue where
  | boolean (b : Bool)
  | char (c : UInt16)
  | byte (i : Int8)
  | short (i : Int16)
  | int (i : Int32)
  | long (i : Int64)
  | float (x : Float32)
  | double (x : Float)
  | object (target : Option ObjectId)

namespace FieldValue

def typeName : FieldValue → String
  | .boolean _ => "boolean"
  | .char _ => "char"
  | .byte _ => "byte"
  | .short _ => "short"
  | .int _ => "int"
  | .long _ => "long"
  | .float _ => "float"
  | .double _ => "double"
  | .object _ => "object"

def boolean? : FieldValue → Option Bool
  | .boolean b => some b
  | _ => none

def int? : FieldValue → Option Int32
  | .int i => some i
  | _ => none

/-- The object that a value refers to; a null reference has none. -/
def target? : FieldValue → Option ObjectId
  | .object target => target
  | _ => none

def isReference : FieldValue → Bool
  | .object _ => true
  | _ => false

end FieldValue

/-- A field is known by its name and the class that declares it. -/
structure Field where
  declaringClass : ObjectId
  name : String
  value : FieldValue

structure Class where
  id : ObjectId
  name : String
  superclass : Option ObjectId
  staticFields : List Field

structure Instance where
  id : ObjectId
  classId : ObjectId
  fields : List Field

inductive PrimitiveType where
  | boolean | char | float | double | byte | short | int | long
  deriving DecidableEq, Repr

namespace PrimitiveType

def byteSize : PrimitiveType → Nat
  | .boolean | .byte => 1
  | .char | .short => 2
  | .float | .int => 4
  | .double | .long => 8

def name : PrimitiveType → String
  | .boolean => "boolean"
  | .char => "char"
  | .float => "float"
  | .double => "double"
  | .byte => "byte"
  | .short => "short"
  | .int => "int"
  | .long => "long"

end PrimitiveType

structure PrimitiveArray where
  id : ObjectId
  elementType : PrimitiveType
  length : UInt64

namespace PrimitiveArray

def className (a : PrimitiveArray) : String := a.elementType.name ++ "[]"

/-- The size of all elements, at most the largest 64-bit number. -/
def byteSize (a : PrimitiveArray) : UInt64 :=
  UInt64.ofNat (min (a.length.toNat * a.elementType.byteSize) 0xffffffffffffffff)

end PrimitiveArray

structure ObjectArray where
  id : ObjectId
  classId : ObjectId
  elements : List (Option ObjectId)

def referenceSize : Nat := 4

def ObjectArray.byteSize (a : ObjectArray) : UInt64 :=
  UInt64.ofNat (a.elements.length * referenceSize)

inductive Object where
  | ofClass (c : Class)
  | ofInstance (i : Instance)
  | ofObjectArray (a : ObjectArray)
  | ofPrimitiveArray (a : PrimitiveArray)

namespace Object

def id : Object → ObjectId
  | .ofClass c => c.id
  | .ofInstance i => i.id
  | .ofObjectArray a => a.id
  | .ofPrimitiveArray a => a.id

def kindName : Object → String
  | .ofClass _ => "CLASS"
  | .ofInstance _ => "INSTANCE"
  | .ofObjectArray _ => "OBJECT_ARRAY"
  | .ofPrimitiveArray _ => "PRIMITIVE_ARRAY"

def class? : Object → Option Class
  | .ofClass c => some c
  | _ => none

def instance? : Object → Option Instance
  | .ofInstance i => some i
  | _ => none

def objectArray? : Object → Option ObjectArray
  | .ofObjectArray a => some a
  | _ => none

def primitiveArray? : Object → Option PrimitiveArray
  | .ofPrimitiveArray a => some a
  | _ => none

end Object

/-- Why the collector keeps an object that nothing else refers to. -/
inductive RootKind where
  | jniGlobal | jniLocal | javaFrame | nativeStack | stickyClass | threadBlock | monitorUsed
  | threadObject | unknown
  deriving DecidableEq, Repr

namespace RootKind

def description : RootKind → String
  | .jniGlobal => "Global variable in native code"
  | .jniLocal => "Local variable in native code"
  | .javaFrame => "Java local variable"
  | .nativeStack => "Input or output parameters in native code"
  | .stickyClass => "System class"
  | .threadBlock => "Thread block"
  | .monitorUsed =>
    "Monitor (anything that called the wait() or notify() methods, or that is synchronized.)"
  | .threadObject => "Thread object"
  | .unknown => "Unknown"

def name : RootKind → String
  | .jniGlobal => "JniGlobal"
  | .jniLocal => "JniLocal"
  | .javaFrame => "JavaFrame"
  | .nativeStack => "NativeStack"
  | .stickyClass => "StickyClass"
  | .threadBlock => "ThreadBlock"
  | .monitorUsed => "MonitorUsed"
  | .threadObject => "ThreadObject"
  | .unknown => "Unknown"

end RootKind

structure Root where
  id : ObjectId
  kind : RootKind
  deriving DecidableEq, Repr

inductive ReferenceKind where
  | instanceField | staticField | arrayEntry
  deriving DecidableEq, Repr

def ReferenceKind.name : ReferenceKind → String
  | .instanceField => "INSTANCE_FIELD"
  | .staticField => "STATIC_FIELD"
  | .arrayEntry => "ARRAY_ENTRY"

/-- A reference from one object to another.  An array entry is named by its index in brackets and
has no declaring class. -/
structure Reference where
  source : ObjectId
  target : ObjectId
  kind : ReferenceKind
  name : String
  declaringClass : Option ObjectId
  deriving DecidableEq, Repr

/-- The references that fields hold. -/
def Field.references (source : ObjectId) (kind : ReferenceKind) (fields : List Field) :
    List Reference :=
  fields.filterMap fun f ↦ f.value.target?.map fun target ↦
    ⟨source, target, kind, f.name, some f.declaringClass⟩

/-- The references that elements from a position on hold. -/
def ObjectArray.references (source : ObjectId) (position : Nat) :
    List (Option ObjectId) → List Reference
  | [] => []
  | none :: rest => references source (position + 1) rest
  | some target :: rest =>
    ⟨source, target, .arrayEntry, s!"[{position}]", none⟩
      :: references source (position + 1) rest

/-- The outgoing references of an object known by an id, in field or element order. -/
def Object.references (source : ObjectId) : Object → List Reference
  | .ofClass c => Field.references source .staticField c.staticFields
  | .ofInstance i => Field.references source .instanceField i.fields
  | .ofObjectArray a => ObjectArray.references source 0 a.elements
  | .ofPrimitiveArray _ => []

theorem Field.source_of_mem_references {source : ObjectId} {kind : ReferenceKind}
    {fields : List Field} {r : Reference} (h : r ∈ Field.references source kind fields) :
    r.source = source := by
  simp only [Field.references, List.mem_filterMap, Option.map_eq_some_iff] at h
  obtain ⟨f, -, target, -, rfl⟩ := h
  rfl

theorem ObjectArray.source_of_mem_references {source : ObjectId} {position : Nat}
    {elements : List (Option ObjectId)} {r : Reference}
    (h : r ∈ ObjectArray.references source position elements) : r.source = source := by
  induction elements generalizing position with
  | nil => simp [ObjectArray.references] at h
  | cons e rest ih =>
    cases e with
    | none => exact ih h
    | some target =>
      rcases List.mem_cons.1 h with rfl | h
      · rfl
      · exact ih h

theorem Object.source_of_mem_references {source : ObjectId} {o : Object} {r : Reference}
    (h : r ∈ o.references source) : r.source = source := by
  cases o with
  | ofClass c => exact Field.source_of_mem_references h
  | ofInstance i => exact Field.source_of_mem_references h
  | ofObjectArray a => exact ObjectArray.source_of_mem_references h
  | ofPrimitiveArray a => simp [Object.references] at h

/-- What can be wrong with a heap or with a question about it. -/
inductive Fault where
  | missingField (object : ObjectId) (className field : String)
  | fieldType (className field expected actual : String)
  | unknownObject (id : ObjectId)
  | duplicateObject (id : ObjectId)
  | unreadable (path : String)
  | malformed (origin reason : String)
  deriving DecidableEq, Repr

/-- The fault in words; what the system says about an unreadable file is left out. -/
def Fault.message : Fault → String
  | .missingField object className field =>
    let id := Text.hex object.toNat
    s!"field {className}.{field} not found on instance 0x{id}"
  | .fieldType className field expected actual =>
    s!"field {className}.{field} is {actual}, expected {expected}"
  | .unknownObject id =>
    let id := Text.hex id.toNat
    s!"object 0x{id} is not in the heap graph"
  | .duplicateObject id =>
    let id := Text.hex id.toNat
    s!"object id 0x{id} appears more than once"
  | .unreadable path => s!"failed to read heap dump {path}"
  | .malformed origin reason => s!"heap dump {origin} is malformed: {reason}"

/-- Classes that box a primitive value. -/
def primitiveWrappers : List String :=
  ["java.lang.Boolean", "java.lang.Character", "java.lang.Float", "java.lang.Double",
    "java.lang.Byte", "java.lang.Short", "java.lang.Integer", "java.lang.Long"]

def isPrimitiveWrapper (className : String) : Bool := primitiveWrappers.contains className

end HeapSentry.Heap
