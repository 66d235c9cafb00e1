/-!
# Paths

A path is kept as it was written.  Its names are what stands between slashes; empty names and single
dots do not count.
-/

namespace HeapSentry.Storage.Path

/-- The names that count, in order. -/
def names (path : String) : List String :=
  ((path.toList.splitOn '/').map String.ofList).filter fun name ↦ name ≠ "" && name ≠ "."

/-- How many bytes a path has less than. -/
def sizeLimit : Nat := 4096

/-- Whether a path can be passed to a machine, before anything is looked up. -/
def isAcceptable (path : String) : Bool :=
  path.utf8ByteSize < sizeLimit && !path.toList.contains '\x00'

def isAbsolute (path : String) : Bool := path.startsWith "/"

/-- A path seen from another one; an absolute path stands for itself. -/
def join (base path : String) : String :=
  if isAbsolute path || base = "" then path
  else if base.endsWith '/' then base ++ path
  else base ++ "/" ++ path

/-- The text up to the end of the last name. -/
def trimEnd (cs : List Char) : List Char :=
  (drop cs.reverse).reverse
where
  /-- Drops slashes, and dots that are names of their own, from a reversed text. -/
  drop : List Char → List Char
    | '/' :: rest => drop rest
    | '.' :: '/' :: rest => drop rest
    | rest => rest

/-- The last name, unless it leads upwards. -/
def fileName? (path : String) : Option String :=
  match (names path).getLast? with
  | some ".." | none => none
  | some name => some name

/-- The path without its last name; the root has none above it. -/
def parent? (path : String) : Option String :=
  match (names path).getLast? with
  | none => none
  | some name =>
    let text := trimEnd path.toList
    let above := text.take (text.length - name.length)
    let trimmed := trimEnd above
    some (if trimmed = [] ∧ isAbsolute path then "/" else String.ofList trimmed)

/-! ## Extensions -/

/-- A name split at its last dot.  A name of nothing but a dot at its start is not split. -/
def splitName (name : String) : String × Option String :=
  let cs := name.toList.reverse
  let after := cs.takeWhile (· ≠ '.')
  match cs.dropWhile (· ≠ '.') with
  | [] | [_] => (name, none)
  | _ :: before => (String.ofList before.reverse, some (String.ofList after.reverse))

/-- What follows the last dot of the last name. -/
def extension? (path : String) : Option String :=
  (fileName? path).bind fun name ↦ (splitName name).2

/-- Puts an extension in place of all that follows the stem of the last name. -/
def setExtension (path extension : String) : String :=
  match fileName? path with
  | none => path
  | some name =>
    let text := trimEnd path.toList
    let stem := (splitName name).1
    String.ofList (text.take (text.length - (name.length - stem.length))) ++ "." ++ extension

/-- The path with another extension.  The old extension is cut off first, and what is left may have
no last name. -/
def withExtension (path extension : String) : String :=
  match extension? path with
  | none => setExtension path extension
  | some old => setExtension (String.ofList (path.toList.take (path.length - old.length))) extension

end HeapSentry.Storage.Path
