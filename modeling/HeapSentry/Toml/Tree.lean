import HeapSentry.Toml.Value

/-!
# Tables under construction

Tables grow while a document is read, and how a table came about says how it may still grow: a
header may add to a table that only arose on the way to another, and a dotted key only to a table
that arose from dotted keys.  Values never grow.
-/

namespace HeapSentry.Toml

/-- How a table came about. -/
inductive Origin where
  /-- On the way to a table with a header. -/
  | implicit
  /-- By its own header. -/
  | header
  /-- By a dotted key. -/
  | dotted
  deriving DecidableEq

inductive Tree where
  | value (v : Value)
  | table (origin : Origin) (entries : List (String × Tree))
  /-- The tables of one name, the last first. -/
  | tables (latest : List (String × Tree)) (earlier : List (List (String × Tree)))

abbrev Entries := List (String × Tree)

mutual

def Tree.toValue : Tree → Value
  | .value v => v
  | .table _ entries => .table (entriesToValues entries)
  | .tables latest earlier =>
    .array ((.table (entriesToValues latest) :: tablesToValues earlier).reverse)

def entriesToValues : List (String × Tree) → List (String × Value)
  | [] => []
  | (key, t) :: rest => (key, t.toValue) :: entriesToValues rest

def tablesToValues : List (List (String × Tree)) → List Value
  | [] => []
  | entries :: rest => .table (entriesToValues entries) :: tablesToValues rest

end

namespace Entries

def set (entries : Entries) (key : String) (t : Tree) : Entries :=
  match entries with
  | [] => [(key, t)]
  | (k, u) :: rest => if k = key then (key, t) :: rest else (k, u) :: set rest key t

def insertDotted : List String → Value → Entries → Option Entries
  | [], _, _ => none
  | [key], v, entries =>
    match entries.lookup key with
    | none => some (set entries key (.value v))
    | some _ => none
  | key :: path, v, entries =>
    match entries.lookup key with
    | none => (insertDotted path v []).map fun inner ↦ set entries key (.table .dotted inner)
    | some (.table .dotted inner) =>
      (insertDotted path v inner).map fun inner ↦ set entries key (.table .dotted inner)
    | some (.table .implicit inner) =>
      if path.length = 1 then none
      else (insertDotted path v inner).map fun inner ↦ set entries key (.table .implicit inner)
    | some _ => none

/-- Opens the table of a header. -/
def openTable? (key : String) (entries : Entries) : Option Entries :=
  match entries.lookup key with
  | none => some (set entries key (.table .header []))
  | some (.table .implicit inner) => some (set entries key (.table .header inner))
  | some _ => none

/-- Adds a table to the tables of one name. -/
def openNextTable? (key : String) (entries : Entries) : Option Entries :=
  match entries.lookup key with
  | none => some (set entries key (.tables [] []))
  | some (.tables latest earlier) => some (set entries key (.tables [] (latest :: earlier)))
  | some _ => none

/-- Changes the table at the end of a path; tables that are missing on the way arise. -/
def within (change : Entries → Option Entries) : List String → Entries → Option Entries
  | [], entries => change entries
  | key :: path, entries =>
    match entries.lookup key with
    | none => (within change path []).map fun inner ↦ set entries key (.table .implicit inner)
    | some (.table origin inner) =>
      (within change path inner).map fun inner ↦ set entries key (.table origin inner)
    | some (.tables latest earlier) =>
      (within change path latest).map fun latest ↦ set entries key (.tables latest earlier)
    | some (.value _) => none

end Entries

end HeapSentry.Toml
