import HeapSentry.Leak.Matcher
import HeapSentry.Leak.Queue
import Std.Data.HashSet

/-!
# Searching from the roots

The search goes out from all roots at once, breadth first.  What is met by way of a library
reference waits in a second queue, which is served while the first is empty; so an object is
reached through a library only if it cannot be reached otherwise.
-/

namespace HeapSentry.Leak

open Heap

structure Visit where
  /-- The last reference on the way; a root has none. -/
  parent : Option Reference
  /-- The root that the way starts from. -/
  root : RootKind
  /-- What describes the first library reference on the way. -/
  library : Option String
  /-- Whether the references of the object have been followed. -/
  done : Bool

structure Search where
  visits : Std.HashMap ObjectId Visit := ∅
  /-- Objects met on plain ways. -/
  plain : Queue ObjectId := .empty
  /-- Objects met on ways through a library. -/
  deferred : Queue ObjectId := .empty
  /-- The wanted objects in order of discovery. -/
  found : Array ObjectId := #[]

namespace Search

/-- Meets an object, which then waits in the queue for its kind of way. -/
def meet (s : Search) (id : ObjectId) (v : Visit) : Search :=
  let visits := s.visits.insert id v
  if v.library.isSome then { s with visits, deferred := s.deferred.push id }
  else { s with visits, plain := s.plain.push id }

@[simp] theorem visits_meet (s : Search) (id : ObjectId) (v : Visit) :
    (s.meet id v).visits = s.visits.insert id v := by
  unfold meet
  split <;> rfl

@[simp] theorem found_meet (s : Search) (id : ObjectId) (v : Visit) :
    (s.meet id v).found = s.found := by
  unfold meet
  split <;> rfl

theorem toList_plain_meet (s : Search) (id : ObjectId) (v : Visit) :
    (s.meet id v).plain.toList = if v.library = none then s.plain.toList ++ [id]
      else s.plain.toList := by
  cases h : v.library <;> simp [meet, h]

theorem toList_deferred_meet (s : Search) (id : ObjectId) (v : Visit) :
    (s.meet id v).deferred.toList = if v.library = none then s.deferred.toList
      else s.deferred.toList ++ [id] := by
  cases h : v.library <;> simp [meet, h]

/-- Meets a root, unless it has been met or is no object. -/
def enter (g : Graph) (s : Search) (root : Root) : Search :=
  if s.visits.contains root.id || (g.object? root.id).isNone then s
  else s.meet root.id ⟨none, root.kind, none, false⟩

def start (g : Graph) : Search := g.roots.foldl (enter g) {}

/-- Whether a way through `library` leads further at an object: none is known yet, or this one is
plain and the known one is not, as long as the object waits. -/
def accepts (s : Search) (id : ObjectId) (library : Option String) : Bool :=
  match s.visits[id]? with
  | none => true
  | some known => !known.done && known.library.isSome && library.isNone

theorem accepts_iff {s : Search} {id : ObjectId} {library : Option String} :
    s.accepts id library = true ↔ ∀ known, s.visits[id]? = some known →
      known.done = false ∧ known.library.isSome ∧ library = none := by
  unfold accepts
  cases h : s.visits[id]? with
  | none => simp
  | some known => simp [and_assoc]

/-- Meets the target of a reference.  A plain way replaces a way through a library as long as the
object waits. -/
def reach (s : Search) (r : Reference) (root : RootKind) (library : Option String) : Search :=
  if s.accepts r.target library then s.meet r.target ⟨some r, root, library, false⟩ else s

def follow (g : Graph) (matchers : List Matcher) (v : Visit) (s : Search) (r : Reference) :
    Search :=
  match Matcher.standingOf matchers g r with
  | .ignored => s
  | .plain => s.reach r v.root v.library
  | .library description => s.reach r v.root (v.library <|> some description)

theorem follow_of_ignored {g : Graph} {matchers : List Matcher} {v : Visit} {s : Search}
    {r : Reference} (h : Matcher.standingOf matchers g r = .ignored) :
    follow g matchers v s r = s := by
  simp [follow, h]

theorem follow_of_ne_ignored {g : Graph} {matchers : List Matcher} {v : Visit} {s : Search}
    {r : Reference} (h : Matcher.standingOf matchers g r ≠ .ignored) :
    follow g matchers v s r
      = s.reach r v.root (v.library <|> (Matcher.standingOf matchers g r).library?) := by
  unfold follow
  cases hs : Matcher.standingOf matchers g r with
  | ignored => exact absurd hs h
  | plain => simp [Standing.library?]
  | library description => rfl

/-- Marks an object as done, which settles the way to it. -/
def settle (wanted : Std.HashSet ObjectId) (s : Search) (id : ObjectId) (v : Visit) : Search :=
  { s with
    visits := s.visits.insert id { v with done := true }
    found := if wanted.contains id then s.found.push id else s.found }

/-- Settles an object and follows all its references. -/
def expand (g : Graph) (matchers : List Matcher) (wanted : Std.HashSet ObjectId) (s : Search)
    (id : ObjectId) (v : Visit) : Search :=
  (g.references id).foldl (follow g matchers v) (s.settle wanted id v)

/-- Takes the object that is served next from its queue. -/
def next? (s : Search) : Option (ObjectId × Search) :=
  match s.plain.pop? with
  | some (id, plain) => some (id, { s with plain })
  | none => s.deferred.pop?.map fun (id, deferred) ↦ (id, { s with deferred })

theorem next?_eq_some {s rest : Search} {id : ObjectId} (h : s.next? = some (id, rest)) :
    rest.visits = s.visits ∧ rest.found = s.found ∧
      (s.plain.toList = id :: rest.plain.toList ∧ s.deferred.toList = rest.deferred.toList ∨
        s.plain.toList = [] ∧ rest.plain.toList = [] ∧
          s.deferred.toList = id :: rest.deferred.toList) := by
  unfold next? at h
  cases hp : s.plain.pop? with
  | some popped =>
    simp only [hp, Option.some.injEq, Prod.mk.injEq] at h
    obtain ⟨rfl, rfl⟩ := h
    exact ⟨rfl, rfl, .inl ⟨Queue.toList_of_pop? hp, rfl⟩⟩
  | none =>
    simp only [hp, Option.map_eq_some_iff, Prod.mk.injEq] at h
    obtain ⟨popped, hd, rfl, rfl⟩ := h
    have hnil := Queue.pop?_eq_none_iff.1 hp
    exact ⟨rfl, rfl, .inr ⟨hnil, hnil, Queue.toList_of_pop? hd⟩⟩

theorem next?_eq_none_iff {s : Search} :
    s.next? = none ↔ s.plain.toList = [] ∧ s.deferred.toList = [] := by
  unfold next?
  cases hp : s.plain.pop? with
  | some popped =>
    have hcons := Queue.toList_of_pop? hp
    simp [hcons]
  | none => simp [Queue.pop?_eq_none_iff.1 hp, Queue.pop?_eq_none_iff]

/-- Serves one entry of the queues; entries of objects that are done are stale. -/
def serve (g : Graph) (matchers : List Matcher) (wanted : Std.HashSet ObjectId) (s : Search)
    (id : ObjectId) : Search :=
  match s.visits[id]? with
  | none => s
  | some v => if v.done then s else s.expand g matchers wanted id v

/-- Serves entries until all wanted objects are found or nothing waits. -/
def run (g : Graph) (matchers : List Matcher) (wanted : Std.HashSet ObjectId) :
    Nat → Search → Search
  | 0, s => s
  | fuel + 1, s =>
    if s.found.size < wanted.size then
      match s.next? with
      | none => s
      | some (id, s) => run g matchers wanted fuel (s.serve g matchers wanted id)
    else s

/-- A bound on the entries of both queues: each stands for a root or for a reference. -/
def entryBound (g : Graph) : Nat :=
  g.roots.size + (g.slots.keys.flatMap g.references).length

/-- Searches a graph for some objects. -/
def ofGraph (g : Graph) (matchers : List Matcher) (wanted : Std.HashSet ObjectId) : Search :=
  run g matchers wanted (entryBound g + 1) (start g)

/-- Goes back to a root from an object, collecting the references on the way. -/
def wayBack (s : Search) : Nat → ObjectId → RootKind → List Reference → RootKind × List Reference
  | fuel, id, root, way =>
    match s.visits[id]? with
    | none => (root, way)
    | some v =>
      match v.parent, fuel with
      | some r, fuel + 1 => wayBack s fuel r.source v.root (r :: way)
      | _, _ => (v.root, way)

/-- The way to an object: the kind of root it starts from and the references along it. -/
def way (s : Search) (id : ObjectId) : RootKind × List Reference :=
  s.wayBack (s.visits.size + 1) id .unknown []

end Search

end HeapSentry.Leak
