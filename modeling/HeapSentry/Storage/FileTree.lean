import HeapSentry.Storage.Path
import Std.Data.TreeMap

/-!
# File trees

The files and directories of a machine as a value.  Every operation says what it answers and what
becomes of the tree; one that fails leaves the tree as it was, except that `makeDirs` keeps what it
has made so far.
-/

namespace HeapSentry.Storage

/-- Where something stands: the names from the root on. -/
abbrev Location := List String

inductive Node where
  | dir
  | file (content : ByteArray)

inductive FileError where
  | notFound | notADirectory | isADirectory | invalidName
  deriving DecidableEq, Repr

/-- Everything but the root, which is always there. -/
structure FileTree where
  nodes : Std.TreeMap Location Node compare := ∅

namespace FileTree

def empty : FileTree := {}

def node? (t : FileTree) (l : Location) : Option Node :=
  if l = [] then some .dir else t.nodes[l]?

def insert (t : FileTree) (l : Location) (n : Node) : FileTree := ⟨t.nodes.insert l n⟩

def erase (t : FileTree) (l : Location) : FileTree := ⟨t.nodes.erase l⟩

/-! ## Finding the place of a path -/

/-- What a directory entry may be called. -/
def isName (name : String) : Bool := name.utf8ByteSize ≤ 255 && !name.toList.contains '\x00'

/-- One name further on. -/
def descend (l : Location) (name : String) : Location :=
  if name = ".." then l.dropLast else l ++ [name]

/-- Goes along names; all but the last have to lead to directories. -/
def walk (t : FileTree) : Location → List String → Except FileError Location
  | l, [] => .ok l
  | l, name :: rest =>
    match t.node? l with
    | none => .error .notFound
    | some (.file _) => .error .notADirectory
    | some .dir => if isName name then walk t (descend l name) rest else .error .invalidName

/-- Whether a path can only be one of a directory. -/
def asksDirectory (path : String) : Bool :=
  match path.toList.reverse with
  | '/' :: _ | '.' :: '/' :: _ => true
  | _ => false

/-- The place of an absolute path, whether or not anything stands there. -/
def locate (t : FileTree) (path : String) : Except FileError Location :=
  if path = "" then .error .notFound else t.walk [] (Path.names path)

/-- What a path leads to. -/
def look (t : FileTree) (path : String) : Except FileError Node := do
  let l ← t.locate path
  match t.node? l with
  | none => .error .notFound
  | some .dir => .ok .dir
  | some (.file content) =>
    if asksDirectory path then .error .notADirectory else .ok (.file content)

/-! ## Operations -/

def read (t : FileTree) (path : String) : Except FileError ByteArray := do
  match ← t.look path with
  | .dir => .error .isADirectory
  | .file content => .ok content

/-- The size that is given for directories. -/
def directorySize : Nat := 4096

def size (t : FileTree) (path : String) : Except FileError Nat := do
  match ← t.look path with
  | .dir => .ok directorySize
  | .file content => .ok content.size

/-- Where a file may be written: in a directory, and not in place of one. -/
def writable (t : FileTree) (path : String) : Except FileError Location := do
  let l ← t.locate path
  match t.node? l with
  | some .dir => .error .isADirectory
  | _ => if asksDirectory path then .error .isADirectory else .ok l

def write (t : FileTree) (path : String) (content : ByteArray) : Except FileError FileTree := do
  let l ← t.writable path
  .ok (t.insert l (.file content))

/-- Makes the directories along some names. -/
def makeDirsAlong (t : FileTree) : Location → List String → Except FileError Unit × FileTree
  | _, [] => (.ok (), t)
  | l, name :: rest =>
    if !isName name then (.error .invalidName, t)
    else
      let here := descend l name
      match t.node? here with
      | some .dir => makeDirsAlong t here rest
      | some (.file _) => (.error .notADirectory, t)
      | none => makeDirsAlong (t.insert here .dir) here rest

/-- Makes a directory and those above it. -/
def makeDirs (t : FileTree) (path : String) : Except FileError Unit × FileTree :=
  t.makeDirsAlong [] (Path.names path)

/-- Copies a file.  The target is emptied before the source is read, so a file copied to itself ends
up empty. -/
def copy (t : FileTree) (source target : String) : Except FileError FileTree := do
  let _ ← t.read source
  let emptied ← t.write target .empty
  let content ← emptied.read source
  emptied.write target content

def remove (t : FileTree) (path : String) : Except FileError FileTree := do
  match ← t.look path with
  | .dir => .error .isADirectory
  | .file _ =>
    let l ← t.locate path
    .ok (t.erase l)

/-- What stands in a directory: its name and whether it is a directory itself. -/
def entryIn? (dir : Location) : Location × Node → Option (String × Bool)
  | (l, n) => if l.dropLast = dir then l.getLast?.map fun name ↦ (name, n matches .dir) else none

/-- The entries of a directory, in increasing order of their names. -/
def entries (t : FileTree) (path : String) : Except FileError (List (String × Bool)) := do
  match ← t.look path with
  | .file _ => .error .notADirectory
  | .dir =>
    let dir ← t.locate path
    .ok (t.nodes.toList.filterMap (entryIn? dir))

/-- Removes a directory with nothing in it. -/
def removeDir (t : FileTree) (path : String) : Except FileError FileTree := do
  match ← t.entries path with
  | [] =>
    let l ← t.locate path
    .ok (t.erase l)
  | _ :: _ => .error .isADirectory

/-- Everything in the tree, in the order of the names. -/
def toList (t : FileTree) : List (Location × Node) := t.nodes.toList

end FileTree

end HeapSentry.Storage
