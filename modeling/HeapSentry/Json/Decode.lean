import HeapSentry.Json.Reading
import HeapSentry.Json.Magnitude
import HeapSentry.Text.Debug

/-!
# Typed reading

A decoder turns a reading into a value of a type or says what is wrong with it.  Decoders go through
a reading in the order of the text and stop at the first fault.
-/

namespace HeapSentry.Json

/-- What was found where something else was expected. -/
inductive Found where
  | null
  | boolean (b : Bool)
  | integer (i : Int)
  | float (x : Float)
  | string (s : String)
  | sequence
  | map
  | bareVariant

inductive DecodeError where
  /-- The text is not JSON, or a number in it is beyond all floats. -/
  | malformed
  | invalidType (found : Found) (expected : String)
  | invalidValue (found : Int) (expected : String)
  | missingField (name : String)
  | duplicateField (name : String)
  | unknownVariant (name : String) (known : List String)
  | invalidLength (found : Nat) (expected : String)

def Found.message : Found → String
  | .null => "null"
  | .boolean b => s!"boolean `{b}`"
  | .integer i => s!"integer `{i}`"
  | .float x =>
    let digits := match Number.ofFloat? x with
      | some n => String.ofList n.text
      | none => "NaN"
    s!"floating point `{digits}`"
  | .string s => "string " ++ Text.debug s
  | .sequence => "sequence"
  | .map => "map"
  | .bareVariant => "unit variant"

def DecodeError.message : DecodeError → String
  | .malformed => "<syntax>"
  | .invalidType found expected => s!"invalid type: {found.message}, expected {expected}"
  | .invalidValue found expected => s!"invalid value: integer `{found}`, expected {expected}"
  | .missingField name => s!"missing field `{name}`"
  | .duplicateField name => s!"duplicate field `{name}`"
  | .unknownVariant name known =>
    let quoted := known.map fun k ↦ s!"`{k}`"
    s!"unknown variant `{name}`, expected one of " ++ ", ".intercalate quoted
  | .invalidLength found expected => s!"invalid length {found}, expected {expected}"

abbrev Decoder (α : Type) := Reading → Except DecodeError α

namespace Decode

/-- The fault of a value of the wrong kind. -/
def mismatch (expected : String) : Reading → DecodeError
  | .broken => .malformed
  | .null => .invalidType .null expected
  | .bool b => .invalidType (.boolean b) expected
  | .num n =>
    match n.magnitude with
    | .natural n => .invalidType (.integer n.toNat) expected
    | .negative i => .invalidType (.integer i.toInt) expected
    | .float x => .invalidType (.float x) expected
    | .tooLarge => .malformed
  | .str (some s) => .invalidType (.string s) expected
  | .str none => .malformed
  | .arr _ _ => .invalidType .sequence expected
  | .obj _ _ => .invalidType .map expected

/-- An integer between two bounds, named by its type. -/
def integer (low high : Int) (type : String) : Decoder Int
  | .num n =>
    match n.magnitude with
    | .natural n =>
      if (n.toNat : Int) ≤ high then .ok n.toNat else .error (.invalidValue n.toNat type)
    | .negative i =>
      if low ≤ i.toInt ∧ i.toInt ≤ high then .ok i.toInt else .error (.invalidValue i.toInt type)
    | .float x => .error (.invalidType (.float x) type)
    | .tooLarge => .error .malformed
  | r => .error (mismatch type r)

def uint64 : Decoder UInt64 := fun r ↦
  (integer 0 0xffffffffffffffff "u64" r).map fun i ↦ UInt64.ofNat i.toNat

def uint32 : Decoder UInt32 := fun r ↦
  (integer 0 0xffffffff "u32" r).map fun i ↦ UInt32.ofNat i.toNat

def uint16 : Decoder UInt16 := fun r ↦
  (integer 0 0xffff "u16" r).map fun i ↦ UInt16.ofNat i.toNat

def count : Decoder UInt64 := fun r ↦
  (integer 0 0xffffffffffffffff "usize" r).map fun i ↦ UInt64.ofNat i.toNat

def int8 : Decoder Int8 := fun r ↦ (integer (-0x80) 0x7f "i8" r).map Int8.ofInt

def int16 : Decoder Int16 := fun r ↦ (integer (-0x8000) 0x7fff "i16" r).map Int16.ofInt

def int32 : Decoder Int32 := fun r ↦ (integer (-0x80000000) 0x7fffffff "i32" r).map Int32.ofInt

def int64 : Decoder Int64 := fun r ↦
  (integer (-0x8000000000000000) 0x7fffffffffffffff "i64" r).map Int64.ofInt

/-- A 64-bit float; an integer is rounded to the nearest. -/
def float : Decoder Float
  | .num n =>
    match n.magnitude with
    | .natural n => .ok n.toFloat
    | .negative i => .ok i.toFloat
    | .float x => .ok x
    | .tooLarge => .error .malformed
  | r => .error (mismatch "f64" r)

/-- A 32-bit float: an integer is rounded to the nearest, a float twice. -/
def float32 : Decoder Float32
  | .num n =>
    match n.magnitude with
    | .natural n => .ok n.toFloat32
    | .negative i => .ok i.toFloat32
    | .float x => .ok x.toFloat32
    | .tooLarge => .error .malformed
  | r => .error (mismatch "f32" r)

def boolean : Decoder Bool
  | .bool b => .ok b
  | r => .error (mismatch "a boolean" r)

def string : Decoder String
  | .str (some s) => .ok s
  | r => .error (mismatch "a string" r)

def optional {α : Type} (d : Decoder α) : Decoder (Option α)
  | .null => .ok none
  | r => (d r).map some

def items {α : Type} (d : Decoder α) (closed : Bool) : List Reading → Except DecodeError (List α)
  | [] => if closed then .ok [] else .error .malformed
  | r :: rs => do
    let a ← d r
    let rest ← items d closed rs
    .ok (a :: rest)

def list {α : Type} (d : Decoder α) : Decoder (List α)
  | .arr rs closed => items d closed rs
  | r => .error (mismatch "a sequence" r)

/-- Decodes all members under their names, then expects the closing brace. -/
def members {α : Type} (d : Decoder α) (closed : Bool) :
    List (Option String × Reading) → Except DecodeError (List (String × α))
  | [] => if closed then .ok [] else .error .malformed
  | (none, _) :: _ => .error .malformed
  | (some k, r) :: ms => do
    let a ← d r
    let rest ← members d closed ms
    .ok ((k, a) :: rest)

def dictionary {α : Type} (d : Decoder α) : Decoder (List (String × α))
  | .obj ms closed => members d closed ms
  | r => .error (mismatch "a map" r)

/-! ## Variants -/

/-- The variant of a given name, or the fault of naming none. -/
def variant {α : Type} (table : List (String × α)) (name : String) : Except DecodeError α :=
  match table.lookup name with
  | some a => .ok a
  | none => .error (.unknownVariant name (table.map Prod.fst))

/-- Once the payload is read, the object must end. -/
def onlyMember {α : Type} (a : α) (others : List (Option String × Reading)) (closed : Bool) :
    Except DecodeError α :=
  if others.isEmpty && closed then .ok a else .error .malformed

/-- A variant with a payload: an object with one member, named after the variant. -/
def tagged {α : Type} (table : List (String × Decoder α)) : Decoder α
  | .str (some name) => do
    let _ ← variant table name
    .error (.invalidType .bareVariant "newtype variant")
  | .obj ((some name, r) :: others) closed => do
    let d ← variant table name
    let a ← d r
    onlyMember a others closed
  | _ => .error .malformed

/-- The payload of a variant without one. -/
def nothing : Decoder Unit
  | .null => .ok ()
  | r => .error (mismatch "unit" r)

/-- A variant without payload: its name, or an object with one member of that name and null. -/
def named {α : Type} (table : List (String × α)) : Decoder α
  | .str (some name) => variant table name
  | .obj ((some name, r) :: others) closed => do
    let a ← variant table name
    nothing r
    onlyMember a others closed
  | _ => .error .malformed

/-! ## Records -/

structure Field where
  Ty : Type
  name : String
  decode : Decoder Ty
  /-- The value of a field that is left out. -/
  absent : Option Ty := none
  /-- Whether the field may also be left out at the end of the list form. -/
  trailing : Bool := absent.isSome

def required {α : Type} (name : String) (d : Decoder α) : Field := ⟨α, name, d, none, false⟩

def defaulting {α : Type} (name : String) (d : Decoder α) (a : α) : Field :=
  ⟨α, name, d, some a, true⟩

/-- An optional field that the list form nevertheless has to show. -/
def omissible {α : Type} (name : String) (d : Decoder α) : Field :=
  ⟨Option α, name, optional d, some none, false⟩

def Values : List Field → Type
  | [] => Unit
  | f :: fs => f.Ty × Values fs

/-- The values met so far. -/
def Slots : List Field → Type
  | [] => Unit
  | f :: fs => Option f.Ty × Slots fs

def Slots.empty : (fs : List Field) → Slots fs
  | [] => ()
  | _ :: fs => (none, Slots.empty fs)

/-- Decodes a member into its slot.  A member of no field is skipped, but must be whole. -/
def Slots.fill : (fs : List Field) → Slots fs → String → Reading → Except DecodeError (Slots fs)
  | [], slots, _, r => if r.whole then .ok slots else .error .malformed
  | f :: fs, (slot, slots), name, r =>
    if name = f.name then
      match slot with
      | some _ => .error (.duplicateField name)
      | none => (f.decode r).map fun a ↦ (some a, slots)
    else (Slots.fill fs slots name r).map fun slots ↦ (slot, slots)

/-- The values once the object has ended; the first field without one is missing. -/
def Slots.finish : (fs : List Field) → Slots fs → Except DecodeError (Values fs)
  | [], _ => .ok ()
  | f :: fs, (slot, slots) =>
    match slot <|> f.absent with
    | none => .error (.missingField f.name)
    | some a => (Slots.finish fs slots).map fun rest ↦ (a, rest)

/-- Goes through the members of an object in order. -/
def Slots.fillAll (fs : List Field) (closed : Bool) :
    Slots fs → List (Option String × Reading) → Except DecodeError (Values fs)
  | slots, [] => if closed then slots.finish else .error .malformed
  | _, (none, _) :: _ => .error .malformed
  | slots, (some name, r) :: ms => do
    let slots ← slots.fill fs name r
    fillAll fs closed slots ms

/-- The list form: the fields in declaration order. -/
def Values.ofItems (expected : String) (closed : Bool) (position : Nat) :
    (fs : List Field) → List Reading → Except DecodeError (Values fs)
  | [], [] => if closed then .ok () else .error .malformed
  | [], _ :: _ => .error .malformed
  | f :: fs, r :: rs => do
    let a ← f.decode r
    let rest ← ofItems expected closed (position + 1) fs rs
    .ok (a, rest)
  | f :: fs, [] =>
    if ¬ closed then .error .malformed
    else if f.trailing then
      match f.absent with
      | some a => (ofItems expected closed (position + 1) fs []).map fun rest ↦ (a, rest)
      | none => .error (.invalidLength position expected)
    else .error (.invalidLength position expected)

/-- A record, written as an object or as the list of its fields. -/
def record {α : Type} (name : String) (fs : List Field) (build : Values fs → α) : Decoder α
  | .obj ms closed => (Slots.fillAll fs closed (.empty fs) ms).map build
  | .arr rs closed =>
    (Values.ofItems s!"struct {name} with {fs.length} elements" closed 0 fs rs).map build
  | r => .error (mismatch ("struct " ++ name) r)

end Decode

/-- Decodes a text that holds one value and nothing else. -/
def decode {α : Type} (d : Decoder α) (text : String) : Except DecodeError α := do
  let (r, ended) := Reading.ofText text
  let a ← d r
  if ended then .ok a else .error .malformed

end HeapSentry.Json
